import FireBoxTransfer.Core.ServerV2
import FireBoxTransfer.Framework.Progress

/-!
# Attempts at a file

The upload isolate sends a file again when the receiver answers that its checksum is wrong,
and the server opens the file again for it. Each of them counts the attempts and has a limit
of its own; a status code is all that goes between them.
-/

namespace FireBoxTransfer

open Runs

/-! ## §1  The two loops -/

namespace UploadIsolate

/-- How often a single file is uploaded at most. -/
def maxUploadAttempts : ℕ := 3

end UploadIsolate

/-- The loop over the attempts, with the number of the attempt. -/
inductive UploadLoop where
  /-- About to send. -/
  | attempt (n : ℕ)
  /-- The request is on its way. -/
  | waiting (n : ℕ)
  | finished (n : ℕ)
  | failed (n : ℕ)
  /-- The content could not be opened, after `n` requests. -/
  | unsent (n : ℕ)
  /-- The server did not take the request. -/
  | rejected (n : ℕ)
deriving DecidableEq

/-- The server, in a request for the file. -/
inductive ServedUpload where
  | idle
  | saving
  | answering (result : SaveResult)
deriving DecidableEq

structure RetryState where
  loop : UploadLoop
  served : ServedUpload
  slot : Option SessionStateV2
  /-- The file as it was left when an attempt at it was over. -/
  settled : Option SessionFileV2

/-- An upload of one file: the ids and the token of the prepared session. -/
structure UploadKey where
  ip : PeerIp
  sessionId : String
  fileId : String
  token : String

inductive RetryAct where
  | send
  /-- The content cannot be opened. -/
  | unsent
  | save (result : SaveResult)
  | answer
  /-- The slot changes for other reasons. -/
  | elsewhere (slot : Option SessionStateV2)

/-- A step of the loop or of the server. -/
def RetryAct.isOwn : RetryAct → Bool
  | .elsewhere _ => false
  | _ => true

/-- The file of the active session in the slot. -/
def slotFile (fileId : String) : Option SessionStateV2 → Option SessionFileV2
  | some (.active session) => session.files.get? fileId
  | _ => none

/-- What the status code of an answer makes of an attempt. -/
def UploadLoop.next (n : ℕ) : Except AppError Response → UploadLoop
  | .ok _ => .finished n
  | .error (.message .unprocessableEntity _) =>
      if n ≥ UploadIsolate.maxUploadAttempts then .failed n else .attempt (n + 1)
  | .error _ => .failed n

section Steps

variable (key : UploadKey)

def retryStep (s : RetryState) : RetryAct → Option RetryState
  | .send =>
      match s.loop with
      | .attempt n =>
          match beginUpload key.ip key.sessionId key.fileId key.token s.slot with
          | .ok (slot, _) =>
              some { s with loop := .waiting n, served := .saving, slot := some slot }
          | .error _ => some { s with loop := .rejected n }
      | _ => none
  | .unsent =>
      match s.loop with
      | .attempt n => some { s with loop := .unsent (n - 1) }
      | _ => none
  | .save result =>
      match s.served with
      | .saving =>
          some { s with
            served := .answering result
            slot := (finalizeFile key.sessionId key.fileId result s.slot).1
            settled := (slotFile key.fileId s.slot).map (·.finalize result) }
      | _ => none
  | .answer =>
      match s.loop, s.served with
      | .waiting n, .answering result =>
          some { s with loop := .next n (uploadResponse result), served := .idle }
      | _, _ => none
  | .elsewhere slot => some { s with slot }

/-- The slot holds the session, with the file as it is given. -/
def HoldsFile (slot : Option SessionStateV2) (file : SessionFileV2) : Prop :=
  ∃ session, slot = some (.active session) ∧ session.sessionId = key.sessionId ∧
    session.senderIp = key.ip ∧ session.files.get? key.fileId = some file

/-- Other changes leave the session active, and the file alone, until it is done with. -/
def LeavesFile (s : RetryState) : RetryAct → Prop
  | .elsewhere slot => ∀ file, file.status.isFinal = false → HoldsFile key s.slot file →
      HoldsFile key slot file
  | _ => True

end Steps

/-! ## §2  What holds of both -/

section Facts

variable {key : UploadKey} {s t : RetryState} {file : SessionFileV2} {result : SaveResult}

/-- Where the two loops are, one to the other. -/
inductive RetryOk (key : UploadKey) (s : RetryState) : Prop where
  | sending (n : ℕ) (file : SessionFileV2) (loop : s.loop = .attempt n) (served : s.served = .idle)
      (holds : HoldsFile key s.slot file) (token : file.token = key.token)
      (status : file.status = .pending) (attempts : file.attempts + 1 = n)
      (few : n ≤ UploadIsolate.maxUploadAttempts)
  | saving (n : ℕ) (file : SessionFileV2) (loop : s.loop = .waiting n) (served : s.served = .saving)
      (holds : HoldsFile key s.slot file) (token : file.token = key.token)
      (status : file.status = .inProgress) (attempts : file.attempts = n)
      (few : n ≤ UploadIsolate.maxUploadAttempts)
  | answering (n : ℕ) (file : SessionFileV2) (result : SaveResult) (loop : s.loop = .waiting n)
      (served : s.served = .answering result) (settled : s.settled = some file)
      (token : file.token = key.token) (status : file.status = finalStatus result n)
      (attempts : file.attempts = n) (few : n ≤ UploadIsolate.maxUploadAttempts)
      (opened : file.status = .pending → HoldsFile key s.slot file)
  | finished (n : ℕ) (file : SessionFileV2) (loop : s.loop = .finished n)
      (served : s.served = .idle) (settled : s.settled = some file)
      (status : file.status = .finished) (attempts : file.attempts = n)
      (few : n ≤ UploadIsolate.maxUploadAttempts)
  | failed (n : ℕ) (file : SessionFileV2) (loop : s.loop = .failed n) (served : s.served = .idle)
      (settled : s.settled = some file) (status : file.status = .failed)
      (attempts : file.attempts = n) (few : n ≤ UploadIsolate.maxUploadAttempts)
  | unsent (n : ℕ) (file : SessionFileV2) (loop : s.loop = .unsent n) (served : s.served = .idle)
      (holds : HoldsFile key s.slot file) (status : file.status = .pending)
      (attempts : file.attempts = n) (few : n ≤ UploadIsolate.maxUploadAttempts)

/-! ## §3  One step -/

/-- **The server takes** the file of an attempt. -/
theorem beginUpload_holds {slot : Option SessionStateV2} (h : HoldsFile key slot file)
    (htoken : file.token = key.token) (hstatus : file.status = .pending) :
    ∃ slot' dto, beginUpload key.ip key.sessionId key.fileId key.token slot = .ok (slot', dto) ∧
      HoldsFile key (some slot') file.start := by
  obtain ⟨session, rfl, hid, hip, hfile⟩ := h
  refine ⟨_, file.dto, beginUpload_eq_ok.mpr
    ⟨session, file, rfl, hid, hip, hfile, htoken, hstatus, rfl, rfl⟩, _, rfl, hid, hip, ?_⟩
  rw [AssocMap.get?_modify_self, hfile]
  rfl

/-- **The server settles** the file, and keeps the session for one that is open again. -/
theorem finalizeFile_holds {slot : Option SessionStateV2} (h : HoldsFile key slot file)
    (hopen : (file.finalize result).status = .pending) :
    HoldsFile key (finalizeFile key.sessionId key.fileId result slot).1 (file.finalize result) := by
  obtain ⟨session, rfl, hid, hip, hfile⟩ := h
  have hsettled :
      (session.files.modify key.fileId (SessionFileV2.finalize result)).get? key.fileId =
        some (file.finalize result) := by
    rw [AssocMap.get?_modify_self, hfile]
    rfl
  have hincomplete : ({ session with
      files := session.files.modify key.fileId (SessionFileV2.finalize result) } :
        UploadSessionV2).isComplete = false := by
    refine isComplete_eq_false_iff.mpr ⟨key.fileId, _, hsettled, ?_⟩
    rw [hopen]
    rfl
  rw [finalizeFile_active hid]
  simp only [hincomplete, Bool.false_eq_true, if_false]
  exact ⟨_, rfl, hid, hip, hsettled⟩

theorem slotFile_holds {slot : Option SessionStateV2} (h : HoldsFile key slot file) :
    slotFile key.fileId slot = some file := by
  obtain ⟨session, rfl, -, -, hfile⟩ := h
  exact hfile

/-- An answer leads on exactly as the server left the file. -/
theorem next_uploadResponse (n : ℕ) (result : SaveResult) :
    (finalStatus result n = .finished ∧ UploadLoop.next n (uploadResponse result) = .finished n) ∨
      (finalStatus result n = .failed ∧ UploadLoop.next n (uploadResponse result) = .failed n) ∨
      (finalStatus result n = .pending ∧ n < UploadIsolate.maxUploadAttempts ∧
        UploadLoop.next n (uploadResponse result) = .attempt (n + 1)) := by
  cases result with
  | success => exact .inl ⟨rfl, rfl⟩
  | failed => exact .inr (.inl ⟨rfl, rfl⟩)
  | hashMismatch =>
      -- the two limits are the same
      by_cases hfew : n < UploadIsolate.maxUploadAttempts
      · refine .inr (.inr ⟨if_pos hfew, hfew, ?_⟩)
        exact if_neg (Nat.not_le.mpr hfew)
      · refine .inr (.inl ⟨if_neg hfew, ?_⟩)
        exact if_pos (Nat.le_of_not_lt hfew)

theorem retryOk_init {slot : Option SessionStateV2} (h : HoldsFile key slot file)
    (htoken : file.token = key.token) (hstatus : file.status = .pending)
    (hattempts : file.attempts = 0) : RetryOk key ⟨.attempt 1, .idle, slot, none⟩ :=
  .sending 1 file rfl rfl h htoken hstatus (by rw [hattempts]) (by decide)

theorem RetryOk.send (h : RetryOk key s) (hstep : retryStep key s .send = some t) :
    RetryOk key t := by
  cases h with
  | sending n file loop served holds token status attempts few =>
      obtain ⟨slot, dto, hbegin, hslot⟩ := beginUpload_holds holds token status
      simp only [retryStep, loop, hbegin] at hstep
      obtain rfl := Option.some.inj hstep
      refine .saving n file.start rfl rfl hslot token rfl ?_ few
      show min (file.attempts + 1) 255 = n
      have hthree : UploadIsolate.maxUploadAttempts = 3 := rfl
      omega
  | saving n file loop => simp [retryStep, loop] at hstep
  | answering n file result loop => simp [retryStep, loop] at hstep
  | finished n file loop => simp [retryStep, loop] at hstep
  | failed n file loop => simp [retryStep, loop] at hstep
  | unsent n file loop => simp [retryStep, loop] at hstep

theorem RetryOk.save (h : RetryOk key s) (hstep : retryStep key s (.save result) = some t) :
    RetryOk key t := by
  cases h with
  | saving n file loop served holds token status attempts few =>
      simp only [retryStep, served, slotFile_holds holds] at hstep
      obtain rfl := Option.some.inj hstep
      have hfinalize : file.finalize result = { file with status := finalStatus result n } := by
        rw [SessionFileV2.finalize, if_pos status, attempts]
      refine .answering n (file.finalize result) result loop rfl rfl ?_ ?_ ?_ few
        fun hopen => finalizeFile_holds holds hopen
      · rw [hfinalize]
        exact token
      · rw [hfinalize]
      · rw [hfinalize]
        exact attempts
  | sending n file loop served => simp [retryStep, served] at hstep
  | answering n file result' loop served => simp [retryStep, served] at hstep
  | finished n file loop served => simp [retryStep, served] at hstep
  | failed n file loop served => simp [retryStep, served] at hstep
  | unsent n file loop served => simp [retryStep, served] at hstep

theorem RetryOk.answer (h : RetryOk key s) (hstep : retryStep key s .answer = some t) :
    RetryOk key t := by
  cases h with
  | answering n file result loop served settled token status attempts few opened =>
      simp only [retryStep, loop, served] at hstep
      obtain rfl := Option.some.inj hstep
      obtain ⟨hfinal, hnext⟩ | ⟨hfinal, hnext⟩ | ⟨hfinal, hfew, hnext⟩ :=
        next_uploadResponse n result
      · rw [hnext]
        exact .finished n file rfl rfl settled (status.trans hfinal) attempts few
      · rw [hnext]
        exact .failed n file rfl rfl settled (status.trans hfinal) attempts few
      · have hpending := status.trans hfinal
        rw [hnext]
        exact .sending (n + 1) file rfl rfl (opened hpending) token hpending
          (congrArg (· + 1) attempts) hfew
  | saving n file loop served => simp [retryStep, loop, served] at hstep
  | sending n file loop => simp [retryStep, loop] at hstep
  | finished n file loop => simp [retryStep, loop] at hstep
  | failed n file loop => simp [retryStep, loop] at hstep
  | unsent n file loop => simp [retryStep, loop] at hstep

theorem RetryOk.stop (h : RetryOk key s) (hstep : retryStep key s .unsent = some t) :
    RetryOk key t := by
  cases h with
  | sending n file loop served holds token status attempts few =>
      simp only [retryStep, loop] at hstep
      obtain rfl := Option.some.inj hstep
      exact .unsent (n - 1) file rfl served holds status (by omega) (by omega)
  | saving n file loop => simp [retryStep, loop] at hstep
  | answering n file result loop => simp [retryStep, loop] at hstep
  | finished n file loop => simp [retryStep, loop] at hstep
  | failed n file loop => simp [retryStep, loop] at hstep
  | unsent n file loop => simp [retryStep, loop] at hstep

theorem RetryOk.elsewhere {slot : Option SessionStateV2} (h : RetryOk key s)
    (hleaves : LeavesFile key s (.elsewhere slot)) : RetryOk key { s with slot } := by
  have hopen : ∀ file : SessionFileV2, file.status = .pending ∨ file.status = .inProgress →
      HoldsFile key s.slot file → HoldsFile key slot file := by
    intro file hstatus
    refine hleaves file ?_
    rcases hstatus with hstatus | hstatus <;> rw [hstatus] <;> rfl
  cases h with
  | sending n file loop served holds token status attempts few =>
      exact .sending n file loop served (hopen file (.inl status) holds) token status attempts few
  | saving n file loop served holds token status attempts few =>
      exact .saving n file loop served (hopen file (.inr status) holds) token status attempts few
  | answering n file result loop served settled token status attempts few opened =>
      exact .answering n file result loop served settled token status attempts few
        fun hpending => hopen file (.inl hpending) (opened hpending)
  | finished n file loop served settled status attempts few =>
      exact .finished n file loop served settled status attempts few
  | failed n file loop served settled status attempts few =>
      exact .failed n file loop served settled status attempts few
  | unsent n file loop served holds status attempts few =>
      exact .unsent n file loop served (hopen file (.inl status) holds) status attempts few

theorem RetryOk.step {a : RetryAct} (h : RetryOk key s) (hleaves : LeavesFile key s a)
    (hstep : retryStep key s a = some t) : RetryOk key t := by
  cases a with
  | send => exact h.send hstep
  | unsent => exact h.stop hstep
  | save result => exact h.save hstep
  | answer => exact h.answer hstep
  | elsewhere slot =>
      obtain rfl := Option.some.inj hstep
      exact h.elsewhere hleaves

end Facts

/-! ## §4  Every run -/

/-- The isolate is done with the file, after so many requests. -/
def UploadLoop.requests : UploadLoop → Option ℕ
  | .finished n | .failed n | .unsent n => some n
  | _ => none

/-- **The loops agree.** No attempt is rejected; when the isolate is done it has finished the
file exactly if the server has, and made as many requests as the server has counted; and what
the server has finished or failed the isolate gives up, or it waits for the answer that says
so. -/
theorem retries_agree (key : UploadKey) {slot : Option SessionStateV2} {file : SessionFileV2}
    (hslot : HoldsFile key slot file) (htoken : file.token = key.token)
    (hpending : file.status = .pending) (hnew : file.attempts = 0) {s : RetryState}
    (hrun : Run (retryStep key) (LeavesFile key) ⟨.attempt 1, .idle, slot, none⟩ s) :
    (∀ n, s.loop ≠ .rejected n) ∧
      (∀ n, s.loop.requests = some n → n ≤ UploadIsolate.maxUploadAttempts ∧
        ∃ file, (s.settled = some file ∧ file.status.isFinal = true ∨
            HoldsFile key s.slot file ∧ file.status = .pending) ∧ file.attempts = n ∧
          (s.loop = .finished n ↔ file.status = .finished)) ∧
      ∀ n, s.loop = .attempt n → ∃ file, HoldsFile key s.slot file ∧ file.status = .pending := by
  have hok : RetryOk key s := hrun.invariant (retryOk_init hslot htoken hpending hnew)
    fun _ _ _ h hleaves hstep => h.step hleaves hstep
  refine ⟨?_, ?_, ?_⟩
  · intro n hrejected
    cases hok <;> simp_all
  · intro n hdone
    cases hok with
    | finished m file loop served settled status attempts few =>
        rw [loop] at hdone
        obtain rfl := Option.some.inj hdone
        exact ⟨few, file, .inl ⟨settled, by rw [status]; rfl⟩, attempts,
          iff_of_true loop status⟩
    | failed m file loop served settled status attempts few =>
        rw [loop] at hdone
        obtain rfl := Option.some.inj hdone
        refine ⟨few, file, .inl ⟨settled, by rw [status]; rfl⟩, attempts, ?_⟩
        rw [loop, status]
        exact iff_of_false nofun nofun
    | unsent m file loop served holds status attempts few =>
        rw [loop] at hdone
        obtain rfl := Option.some.inj hdone
        refine ⟨few, file, .inr ⟨holds, status⟩, attempts, ?_⟩
        rw [loop, status]
        exact iff_of_false nofun nofun
    | sending m file loop => simp [loop, UploadLoop.requests] at hdone
    | saving m file loop => simp [loop, UploadLoop.requests] at hdone
    | answering m file result loop => simp [loop, UploadLoop.requests] at hdone
  · intro n hattempt
    cases hok with
    | sending m file loop served holds token status => exact ⟨file, holds, status⟩
    | saving m file loop => simp [loop] at hattempt
    | answering m file result loop => simp [loop] at hattempt
    | finished m file loop => simp [loop] at hattempt
    | failed m file loop => simp [loop] at hattempt
    | unsent m file loop => simp [loop] at hattempt

/-! A file whose checksum is wrong the first time. -/

namespace Retried

def key : UploadKey := ⟨Sample.sender.ip, "session", "file", "token"⟩

def file : SessionFileV2 :=
  ⟨Sample.file "file", "token", .pending, 0⟩

def slot : Option SessionStateV2 := some (.active ⟨"session", key.ip, .ofList [("file", file)]⟩)

def acts : List RetryAct := [.send, .save .hashMismatch, .answer, .send, .save .success, .answer]

end Retried

open Retried in
theorem retries_agree_second : ∃ (s : RetryState) (file : SessionFileV2), s.loop = .finished 2 ∧
    Run (retryStep key) (LeavesFile key) ⟨.attempt 1, .idle, slot, none⟩ s ∧
    file.status = .finished ∧ file.attempts = 2 := by
  have hslot : HoldsFile key slot file := ⟨_, rfl, rfl, rfl, by decide⟩
  obtain ⟨s, hexec, hloop⟩ := exists_of_exec_any (retryStep key)
    ⟨.attempt 1, .idle, slot, none⟩ acts (fun s => decide (s.loop = .finished 2))
    (by decide +kernel)
  have hloop : s.loop = .finished 2 := of_decide_eq_true hloop
  have hguarded : Guarded (retryStep key) (LeavesFile key) ⟨.attempt 1, .idle, slot, none⟩ acts :=
    guarded_of_forall (P := fun a => a.isOwn = true)
      (fun s a hown => by cases a <;> first | exact trivial | cases hown) (by decide) _
  have hrun := run_of_exec hexec hguarded
  obtain ⟨-, hdone, -⟩ := retries_agree key hslot rfl rfl rfl hrun
  obtain ⟨-, file, -, hattempts, hfinished⟩ := hdone 2 (by rw [hloop]; rfl)
  exact ⟨s, file, hloop, hrun, hfinished.mp hloop, hattempts⟩

end FireBoxTransfer

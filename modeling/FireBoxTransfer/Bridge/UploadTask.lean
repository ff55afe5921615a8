import FireBoxTransfer.Bridge.UploadRetries

/-!
# The files of an upload task

The upload isolate sends the files of a task two at a time over one client and with one
cancellation token. A file from memory is handed to its request as a stream; when the request
is over before it has taken the bytes, the error path that is meant for a failing source
cancels the token, which all files of the task share.
-/

namespace FireBoxTransfer

open Runs

/-! ## §1  The task -/

namespace UploadIsolate

/-- How many files are uploaded in parallel. -/
def concurrency : ℕ := 2

end UploadIsolate

structure HttpUploadFile where
  remoteFileToken : String
  fileId : String
  filePath : Option String
  fileBytes : Option (List (BitVec 8))
  fileSize : ℕ
deriving DecidableEq

/-- The bytes in memory are sent, as a stream of one chunk. -/
def HttpUploadFile.streams (file : HttpUploadFile) : Bool :=
  file.filePath.isNone && file.fileBytes.isSome

inductive HttpUploadEvent where
  | started (fileId : String)
  | progress (fileId : String)
  | finished (fileId : String)
  | failed (fileId : String)
deriving DecidableEq

/-- How the request of an attempt ends. -/
inductive RequestEnd where
  | ok
  | status (code : ℕ)
  | cancelled
  | failed
deriving DecidableEq

inductive AttemptEnd where
  /-- There is no file descriptor, or no address to send to. -/
  | unsent
  /-- The bytes could not be added, for the request was over. -/
  | refused (result : RequestEnd)
  | ended (result : RequestEnd)
deriving DecidableEq

/-- A file of the task, with how its attempts ended so far. -/
inductive FileRun where
  | waiting
  /-- Not started, for the task was cancelled. -/
  | skipped
  | attempt (ends : List AttemptEnd)
  /-- The request is running, the bytes are being added to its stream. -/
  | adding (ends : List AttemptEnd)
  | requesting (ends : List AttemptEnd)
  | finished (ends : List AttemptEnd)
  | failed (ends : List AttemptEnd)
deriving DecidableEq

namespace FileRun

def ends : FileRun → List AttemptEnd
  | .attempt ends | .adding ends | .requesting ends | .finished ends | .failed ends => ends
  | _ => []

def isActive : FileRun → Bool
  | .attempt _ | .adding _ | .requesting _ => true
  | _ => false

/-- The action of the pool has returned. -/
def isOver : FileRun → Bool
  | .skipped | .finished _ | .failed _ => true
  | _ => false

end FileRun

/-- What the last of some attempts leads to: only a wrong checksum is tried again. -/
inductive AttemptVerdict where
  | finished | failed | again
deriving DecidableEq

def AttemptEnd.verdict (attempt : ℕ) : AttemptEnd → AttemptVerdict
  | .ended .ok => .finished
  | .ended (.status code) | .refused (.status code) =>
      if code ≠ 422 ∨ attempt ≥ UploadIsolate.maxUploadAttempts then .failed else .again
  | _ => .failed

/-- The verdict on the attempts made so far. -/
def attemptsVerdict (ends : List AttemptEnd) : AttemptVerdict :=
  match ends.getLast? with
  | some last => last.verdict ends.length
  | none => .again

/-- The file after an attempt. -/
def FileRun.settle (ends : List AttemptEnd) : FileRun :=
  match attemptsVerdict ends with
  | .finished => .finished ends
  | .failed => .failed ends
  | .again => .attempt ends

inductive FileAct where
  | begin
  | unsent
  | added
  | refused (result : RequestEnd)
  | ended (result : RequestEnd)
deriving DecidableEq

/-- A request is only cancelled by the token. -/
def RequestEnd.mayEnd (cancelled : Bool) (result : RequestEnd) : Bool :=
  cancelled || result ≠ .cancelled

def FileRun.step (file : HttpUploadFile) (cancelled : Bool) : FileRun → FileAct → Option FileRun
  | .attempt ends, .begin =>
      some (if file.streams then .adding ends else .requesting ends)
  | .attempt ends, .unsent => some (.settle (ends ++ [.unsent]))
  | .adding ends, .added => some (.requesting ends)
  | .adding ends, .refused result =>
      if result.mayEnd cancelled then some (.settle (ends ++ [.refused result])) else none
  | .requesting ends, .ended result =>
      if result.mayEnd cancelled then some (.settle (ends ++ [.ended result])) else none
  | _, _ => none

/-- The event at the end of a file. -/
def FileRun.closing (fileId : String) : FileRun → List HttpUploadEvent
  | .finished _ => [.finished fileId]
  | .failed _ => [.failed fileId]
  | _ => []

structure UploadTaskState where
  /-- The files, in the order of the task. -/
  runs : List FileRun
  /-- The token is found under the id of the task. -/
  registered : Bool
  /-- The token is cancelled. -/
  cancelled : Bool
  /-- The events, with the position of the file each is about. -/
  log : List (ℕ × HttpUploadEvent)
  /-- The handler is still draining the pool. -/
  draining : Bool
  /-- How often the task was reported as done. -/
  done : ℕ

inductive UploadTaskAct where
  /-- The pool takes the next file. -/
  | take
  | file (i : ℕ) (act : FileAct)
  | cancel
  | done
deriving DecidableEq

/-- The catch of `upload` cancels the token before it throws the error again. -/
def FileAct.cancels : FileAct → Bool
  | .refused _ => true
  | _ => false

def UploadTaskState.init (files : List HttpUploadFile) : UploadTaskState where
  runs := files.map fun _ => .waiting
  registered := true
  cancelled := false
  log := []
  draining := true
  done := 0

def uploadTaskStep (files : List HttpUploadFile) (s : UploadTaskState) :
    UploadTaskAct → Option UploadTaskState
  | .take =>
      match s.runs.idxOf? .waiting with
      | some i =>
          match files[i]? with
          | some file =>
              if s.runs.countP FileRun.isActive < UploadIsolate.concurrency then
                if s.registered then
                  some { s with
                    runs := s.runs.set i (.attempt [])
                    log := s.log ++ [(i, .started file.fileId)] }
                else some { s with runs := s.runs.set i .skipped }
              else none
          | none => none
      | none => none
  | .file i act =>
      match s.runs[i]?, files[i]? with
      | some run, some file =>
          (run.step file s.cancelled act).map fun run' =>
            { s with
              runs := s.runs.set i run'
              cancelled := s.cancelled || act.cancels
              log := s.log ++ (run'.closing file.fileId).map fun event => (i, event) }
      | _, _ => none
  | .cancel =>
      -- a task that is over is not found any more
      if s.registered then some { s with cancelled := true, registered := false } else some s
  | .done =>
      if s.draining && s.runs.all FileRun.isOver then
        some { s with draining := false, done := s.done + 1, registered := false }
      else none

/-- The events about one of the files. -/
def fileEvents (i : ℕ) (log : List (ℕ × HttpUploadEvent)) : List HttpUploadEvent :=
  (log.filter fun entry => entry.1 = i).map Prod.snd

def HttpUploadEvent.isStarted : HttpUploadEvent → Bool
  | .started _ => true
  | _ => false

/-! ## §2  One file -/

namespace FileRun

/-- The events of a file so far. -/
def events (fileId : String) : FileRun → List HttpUploadEvent
  | .waiting | .skipped => []
  | .attempt _ | .adding _ | .requesting _ => [.started fileId]
  | .finished _ => [.started fileId, .finished fileId]
  | .failed _ => [.started fileId, .failed fileId]

/-- The verdict a file stands for. -/
def stands : FileRun → Option AttemptVerdict
  | .skipped => none
  | .finished _ => some .finished
  | .failed _ => some .failed
  | _ => some .again

/-- What has become of a file follows from how its own requests ended, and none of them was
cancelled. -/
structure Own (run : FileRun) : Prop where
  verdict : run.stands = some (attemptsVerdict run.ends)
  uncancelled : ∀ e ∈ run.ends, e ≠ .refused .cancelled ∧ e ≠ .ended .cancelled

/-- The steps that are left for a file: three for an attempt and one to start it. -/
def left : FileRun → ℕ
  | .waiting => 10
  | .attempt ends => 9 - 3 * ends.length
  | .adding ends => 8 - 3 * ends.length
  | .requesting ends => 7 - 3 * ends.length
  | _ => 0

section OneFile

variable {file : HttpUploadFile} {cancelled : Bool} {run run' : FileRun} {act : FileAct}
  {ends : List AttemptEnd}

theorem settle_ends : (settle ends).ends = ends := by
  unfold settle
  split <;> rfl

theorem settle_stands : (settle ends).stands = some (attemptsVerdict ends) := by
  unfold settle
  split <;> rename_i hverdict <;> rw [hverdict] <;> rfl

theorem settle_events (fileId : String) :
    (settle ends).events fileId = [.started fileId] ++ (settle ends).closing fileId := by
  unfold settle
  split <;> rfl

theorem events_of_isActive (h : run.isActive = true) (fileId : String) :
    run.events fileId = [.started fileId] ∧ run.closing fileId = [] := by
  cases run with
  | attempt ends => exact ⟨rfl, rfl⟩
  | adding ends => exact ⟨rfl, rfl⟩
  | requesting ends => exact ⟨rfl, rfl⟩
  | _ => cases h

theorem stands_of_isActive (h : run.isActive = true) : run.stands = some .again := by
  cases run with
  | attempt ends => rfl
  | adding ends => rfl
  | requesting ends => rfl
  | _ => cases h

theorem few_of_again (h : attemptsVerdict ends = .again) :
    ends.length < UploadIsolate.maxUploadAttempts := by
  unfold attemptsVerdict at h
  split at h
  · rename_i last hlast
    unfold AttemptEnd.verdict at h
    split at h
    · cases h
    · rename_i code
      by_cases hlimit : code ≠ 422 ∨ ends.length ≥ UploadIsolate.maxUploadAttempts
      · rw [if_pos hlimit] at h
        cases h
      · exact Nat.lt_of_not_le fun hle => hlimit (.inr hle)
    · rename_i code
      by_cases hlimit : code ≠ 422 ∨ ends.length ≥ UploadIsolate.maxUploadAttempts
      · rw [if_pos hlimit] at h
        cases h
      · exact Nat.lt_of_not_le fun hle => hlimit (.inr hle)
    · cases h
  · rename_i hnone
    rw [List.getLast?_eq_none_iff.mp hnone]
    decide

/-- **A step of a file** goes on with the attempt or ends it. -/
theorem step_cases (h : run.step file cancelled act = some run') :
    run.isActive = true ∧
      ((run'.isActive = true ∧ run'.ends = run.ends ∧ act.cancels = false ∧
          (run.ends.length < UploadIsolate.maxUploadAttempts → run'.left < run.left)) ∨
        ∃ last, run' = settle (run.ends ++ [last]) ∧
          (∀ result, act = .refused result → last = .refused result) ∧
          (cancelled = false → last ≠ .refused .cancelled ∧ last ≠ .ended .cancelled) ∧
          7 - 3 * run.ends.length ≤ run.left) := by
  have hthree : UploadIsolate.maxUploadAttempts = 3 := rfl
  cases run with
  | attempt ends =>
      refine ⟨rfl, ?_⟩
      cases act with
      | begin =>
          obtain rfl := Option.some.inj h
          refine .inl ?_
          by_cases hstreams : file.streams = true
          · rw [if_pos hstreams]
            refine ⟨rfl, rfl, rfl, ?_⟩
            simp only [left, FileRun.ends]
            omega
          · rw [if_neg hstreams]
            refine ⟨rfl, rfl, rfl, ?_⟩
            simp only [left, FileRun.ends]
            omega
      | unsent =>
          obtain rfl := Option.some.inj h
          refine .inr ⟨.unsent, rfl, nofun, fun _ => ⟨nofun, nofun⟩, ?_⟩
          simp only [left, FileRun.ends]
          omega
      | _ => cases h
  | adding ends =>
      refine ⟨rfl, ?_⟩
      cases act with
      | added =>
          obtain rfl := Option.some.inj h
          refine .inl ⟨rfl, rfl, rfl, ?_⟩
          simp only [left, FileRun.ends]
          omega
      | refused result =>
          simp only [step, Option.ite_none_right_eq_some, Option.some.injEq] at h
          obtain ⟨hmay, rfl⟩ := h
          refine .inr ⟨.refused result, rfl, fun _ heq => by cases heq; rfl, ?_, ?_⟩
          · rintro rfl
            simp only [RequestEnd.mayEnd, Bool.false_or, ne_eq, decide_eq_true_eq] at hmay
            exact ⟨fun heq => hmay (AttemptEnd.refused.inj heq), nofun⟩
          · simp only [left, FileRun.ends]
            omega
      | _ => cases h
  | requesting ends =>
      refine ⟨rfl, ?_⟩
      cases act with
      | ended result =>
          simp only [step, Option.ite_none_right_eq_some, Option.some.injEq] at h
          obtain ⟨hmay, rfl⟩ := h
          refine .inr ⟨.ended result, rfl, nofun, ?_, Nat.le_refl _⟩
          rintro rfl
          simp only [RequestEnd.mayEnd, Bool.false_or, ne_eq, decide_eq_true_eq] at hmay
          exact ⟨nofun, fun heq => hmay (AttemptEnd.ended.inj heq)⟩
      | _ => cases h
  | _ => cases h

/-- The events of a file grow by the one at its end. -/
theorem step_events (h : run.step file cancelled act = some run') (fileId : String) :
    run'.events fileId = run.events fileId ++ run'.closing fileId := by
  obtain ⟨hactive, ⟨hactive', -⟩ | ⟨last, rfl, -⟩⟩ := step_cases h
  · rw [(events_of_isActive hactive fileId).1, (events_of_isActive hactive' fileId).1,
      (events_of_isActive hactive' fileId).2]
    rfl
  · rw [(events_of_isActive hactive fileId).1]
    exact settle_events fileId

theorem Own.step (hown : run.Own) (h : run.step file false act = some run') : run'.Own := by
  obtain ⟨hactive, ⟨hactive', hends, -⟩ | ⟨last, rfl, -, hlast, -⟩⟩ := step_cases h
  · refine ⟨?_, ?_⟩
    · rw [hends, stands_of_isActive hactive', ← stands_of_isActive hactive, hown.verdict]
    · rw [hends]
      exact hown.uncancelled
  · refine ⟨?_, ?_⟩
    · rw [settle_ends]
      exact settle_stands
    · rw [settle_ends]
      intro e he
      obtain he | he := List.mem_append.mp he
      · exact hown.uncancelled e he
      · rw [List.mem_singleton.mp he]
        exact hlast rfl

/-- A step of a file uses up one of those that are left. -/
theorem step_left (hagain : attemptsVerdict run.ends = .again)
    (h : run.step file cancelled act = some run') : run'.left < run.left := by
  have hfew := few_of_again hagain
  have hthree : UploadIsolate.maxUploadAttempts = 3 := rfl
  obtain ⟨-, ⟨-, -, -, hleft⟩ | ⟨last, rfl, -, -, hleft⟩⟩ := step_cases h
  · exact hleft hfew
  · have hsettled : (settle (run.ends ++ [last])).left ≤ 9 - 3 * (run.ends.length + 1) := by
      unfold settle
      split
      · exact Nat.zero_le _
      · exact Nat.zero_le _
      · simp only [left, List.length_append, List.length_singleton, Nat.le_refl]
    omega

/-- Something is left to do for a file that is being sent. -/
theorem exists_step (file : HttpUploadFile) (h : run.isActive = true) :
    ∃ act run', act.cancels = false ∧ run.step file cancelled act = some run' := by
  cases run with
  | attempt ends => exact ⟨.begin, _, rfl, rfl⟩
  | adding ends => exact ⟨.added, _, rfl, rfl⟩
  | requesting ends => exact ⟨.ended .ok, _, rfl, if_pos (by cases cancelled <;> rfl)⟩
  | _ => cases h

end OneFile

end FileRun

/-! ## §3  One step -/

section Steps

variable {files : List HttpUploadFile} {s t : UploadTaskState} {a : UploadTaskAct}

/-- Nothing but the file at `i` changes, and the events sent are about it. -/
structure FileMoves (s t : UploadTaskState) (i : ℕ) (run run' : FileRun)
    (sent : List HttpUploadEvent) : Prop where
  found : s.runs[i]? = some run
  runs : t.runs = s.runs.set i run'
  log : t.log = s.log ++ sent.map fun event => (i, event)
  registered : t.registered = s.registered
  draining : t.draining = s.draining
  done : t.done = s.done

theorem take_cases (h : uploadTaskStep files s .take = some t) :
    ∃ i file, files[i]? = some file ∧ t.cancelled = s.cancelled ∧
      ((s.registered = true ∧ FileMoves s t i .waiting (.attempt []) [.started file.fileId]) ∨
        (s.registered = false ∧ FileMoves s t i .waiting .skipped [])) := by
  simp only [uploadTaskStep] at h
  split at h
  · rename_i i hi
    obtain ⟨hlt, hwaiting, -⟩ := List.idxOf?_eq_some_iff.mp hi
    have hfound : s.runs[i]? = some .waiting := List.getElem?_eq_some_iff.mpr ⟨hlt, hwaiting⟩
    split at h
    · rename_i file hfile
      refine ⟨i, file, hfile, ?_⟩
      split_ifs at h with hfew hregistered
      · obtain rfl := Option.some.inj h
        exact ⟨rfl, .inl ⟨hregistered, hfound, rfl, rfl, rfl, rfl, rfl⟩⟩
      · obtain rfl := Option.some.inj h
        exact ⟨rfl, .inr ⟨eq_false_of_ne_true hregistered, hfound, rfl,
          (List.append_nil _).symm, rfl, rfl, rfl⟩⟩
    · cases h
  · cases h

theorem file_cases {i : ℕ} {act : FileAct} (h : uploadTaskStep files s (.file i act) = some t) :
    ∃ file run run', files[i]? = some file ∧ run.step file s.cancelled act = some run' ∧
      t.cancelled = (s.cancelled || act.cancels) ∧
      FileMoves s t i run run' (run'.closing file.fileId) := by
  simp only [uploadTaskStep] at h
  split at h
  · rename_i run file hrun hfile
    obtain ⟨run', hstep, rfl⟩ := Option.map_eq_some_iff.mp h
    exact ⟨file, run, run', hfile, hstep, rfl, hrun, rfl, rfl, rfl, rfl, rfl⟩
  · cases h

theorem done_cases (h : uploadTaskStep files s .done = some t) :
    s.draining = true ∧ (∀ run ∈ s.runs, run.isOver = true) ∧
      t = { s with draining := false, done := s.done + 1, registered := false } := by
  simp only [uploadTaskStep, Option.ite_none_right_eq_some, Option.some.injEq,
    Bool.and_eq_true] at h
  obtain ⟨⟨hdraining, hover⟩, rfl⟩ := h
  exact ⟨hdraining, List.all_eq_true.mp hover, rfl⟩

/-- The files after one of them moved. -/
theorem FileMoves.run_cases {i j : ℕ} {run run' other : FileRun} {sent : List HttpUploadEvent}
    (h : FileMoves s t i run run' sent) (hother : t.runs[j]? = some other) :
    (j = i ∧ other = run') ∨ (j ≠ i ∧ s.runs[j]? = some other) := by
  have hlt : i < s.runs.length := (List.getElem?_eq_some_iff.mp h.found).1
  rw [h.runs] at hother
  by_cases hji : j = i
  · subst hji
    rw [List.getElem?_set_self hlt] at hother
    exact .inl ⟨rfl, (Option.some.inj hother).symm⟩
  · rw [List.getElem?_set_ne (Ne.symm hji)] at hother
    exact .inr ⟨hji, hother⟩

theorem fileEvents_append (i j : ℕ) (log : List (ℕ × HttpUploadEvent))
    (sent : List HttpUploadEvent) :
    fileEvents j (log ++ sent.map fun event => (i, event)) =
      fileEvents j log ++ if i = j then sent else [] := by
  unfold fileEvents
  rw [List.filter_append, List.map_append]
  congr 1
  by_cases hij : i = j
  · rw [if_pos hij, List.filter_eq_self.mpr, List.map_map]
    · exact List.map_id sent
    · simp [hij]
  · rw [if_neg hij, List.filter_eq_nil_iff.mpr]
    · rfl
    · simp [hij]

end Steps

/-! ## §4  Every run -/

/-- The task is not cancelled, and a file whose bytes cannot be added is the last one, with no
attempt to follow. -/
def OnlyLastRefused (s : UploadTaskState) : UploadTaskAct → Prop
  | .cancel => False
  | .file i (.refused result) => ∀ (j : ℕ) (run : FileRun), s.runs[j]? = some run →
      if j = i then attemptsVerdict (run.ends ++ [.refused result]) = .failed
      else run.isOver = true
  | _ => True

structure TaskOk (files : List HttpUploadFile) (s : UploadTaskState) : Prop where
  length : s.runs.length = files.length
  events : ∀ {i : ℕ} {file : HttpUploadFile} {run : FileRun}, files[i]? = some file →
    s.runs[i]? = some run → fileEvents i s.log = run.events file.fileId
  own : ∀ {i : ℕ} {run : FileRun}, s.runs[i]? = some run → run.Own
  /-- With the token cancelled nothing is sent any more. -/
  quiet : s.cancelled = true → ∀ {i : ℕ} {run : FileRun}, s.runs[i]? = some run →
    run.isOver = true
  registered : s.draining = true → s.registered = true
  ended : s.draining = false → s.done = 1 ∧ ∀ {i : ℕ} {run : FileRun}, s.runs[i]? = some run →
    run.isOver = true
  running : s.draining = true → s.done = 0

section Runs

variable {files : List HttpUploadFile} {s t : UploadTaskState} {a : UploadTaskAct}

theorem taskOk_init (files : List HttpUploadFile) : TaskOk files (.init files) := by
  have hwaiting : ∀ {i : ℕ} {run : FileRun}, (UploadTaskState.init files).runs[i]? = some run →
      run = .waiting := by
    intro i run hrun
    obtain ⟨file, -, rfl⟩ := List.mem_map.mp (List.mem_of_getElem? hrun)
    rfl
  constructor
  · exact List.length_map _
  · intro i file run hfile hrun
    rw [hwaiting hrun]
    rfl
  · intro i run hrun
    rw [hwaiting hrun]
    exact ⟨rfl, fun e he => nomatch he⟩
  · exact fun hcancelled => nomatch hcancelled
  · exact fun _ => rfl
  · exact fun hdraining => nomatch hdraining
  · exact fun _ => rfl

/-- The task is drained until every file is over. -/
theorem TaskOk.draining (h : TaskOk files s) {i : ℕ} {run : FileRun} (hrun : s.runs[i]? = some run)
    (hopen : run.isOver = false) : s.draining = true := by
  refine eq_true_of_ne_false fun hdraining => ?_
  rw [(h.ended hdraining).2 hrun] at hopen
  cases hopen

theorem TaskOk.moves (h : TaskOk files s) {i : ℕ} {run run' : FileRun}
    {sent : List HttpUploadEvent} {file : HttpUploadFile} (hfile : files[i]? = some file)
    (hmoves : FileMoves s t i run run' sent) (hopen : run.isOver = false)
    (hevents : run'.events file.fileId = run.events file.fileId ++ sent) (hown : run'.Own)
    (hquiet : t.cancelled = true → ∀ {j : ℕ} {other : FileRun}, t.runs[j]? = some other →
      other.isOver = true) : TaskOk files t := by
  have hdraining := hmoves.draining.trans (h.draining hmoves.found hopen)
  constructor
  · rw [hmoves.runs, List.length_set, h.length]
  · intro j file' other hfile' hother
    rw [hmoves.log, fileEvents_append]
    obtain ⟨rfl, rfl⟩ | ⟨hji, hother⟩ := hmoves.run_cases hother
    · obtain rfl := Option.some.inj (hfile.symm.trans hfile')
      rw [if_pos rfl, h.events hfile hmoves.found, hevents]
    · rw [if_neg (Ne.symm hji), List.append_nil, h.events hfile' hother]
  · intro j other hother
    obtain ⟨-, rfl⟩ | ⟨-, hother⟩ := hmoves.run_cases hother
    · exact hown
    · exact h.own hother
  · exact hquiet
  · intro _
    rw [hmoves.registered]
    exact h.registered (h.draining hmoves.found hopen)
  · intro hended
    rw [hdraining] at hended
    cases hended
  · intro _
    rw [hmoves.done]
    exact h.running (h.draining hmoves.found hopen)

theorem isOver_of_isActive {run : FileRun} (h : run.isActive = true) : run.isOver = false := by
  cases run with
  | attempt ends => rfl
  | adding ends => rfl
  | requesting ends => rfl
  | _ => cases h

theorem TaskOk.file (h : TaskOk files s) {i : ℕ} {act : FileAct}
    (hguard : OnlyLastRefused s (.file i act))
    (hstep : uploadTaskStep files s (.file i act) = some t) :
    TaskOk files t := by
  obtain ⟨file, run, run', hfile, hrun, hcancelled, hmoves⟩ := file_cases hstep
  have hactive := (FileRun.step_cases hrun).1
  have hopen := isOver_of_isActive hactive
  have hclear : s.cancelled = false := by
    refine eq_false_of_ne_true fun hquiet => ?_
    rw [h.quiet hquiet hmoves.found] at hopen
    cases hopen
  refine h.moves hfile hmoves hopen (FileRun.step_events hrun file.fileId)
    ((h.own hmoves.found).step (hclear ▸ hrun)) ?_
  intro hquiet j other hother
  -- the token is cancelled by this step, which the guard lets happen at the last file only
  rw [hcancelled, hclear, Bool.false_or] at hquiet
  cases act with
  | refused result =>
      obtain ⟨-, ⟨-, -, hkeeps, -⟩ | ⟨last, rfl, hlast, -, -⟩⟩ := FileRun.step_cases hrun
      · cases hkeeps
      · obtain ⟨rfl, rfl⟩ | ⟨hji, hother⟩ := hmoves.run_cases hother
        · have hfailed := hguard j run hmoves.found
          rw [if_pos rfl] at hfailed
          rw [hlast result rfl, FileRun.settle, hfailed]
          rfl
        · have hover := hguard j other hother
          rwa [if_neg hji] at hover
  | _ => cases hquiet

theorem TaskOk.step (h : TaskOk files s) (hguard : OnlyLastRefused s a)
    (hstep : uploadTaskStep files s a = some t) : TaskOk files t := by
  cases a with
  | take =>
      obtain ⟨i, file, hfile, hcancelled, ⟨-, hmoves⟩ | ⟨hregistered, hmoves⟩⟩ := take_cases hstep
      · refine h.moves hfile hmoves rfl rfl ⟨rfl, fun e he => nomatch he⟩ ?_
        intro hquiet
        have hover := h.quiet (hcancelled.symm.trans hquiet) hmoves.found
        cases hover
      · rw [h.registered (h.draining hmoves.found rfl)] at hregistered
        cases hregistered
  | file i act => exact h.file hguard hstep
  | cancel => exact hguard.elim
  | done =>
      obtain ⟨hdraining, hover, rfl⟩ := done_cases hstep
      have hover : ∀ {i : ℕ} {run : FileRun}, s.runs[i]? = some run → run.isOver = true :=
        fun hrun => hover _ (List.mem_of_getElem? hrun)
      constructor
      · exact h.length
      · exact h.events
      · exact h.own
      · exact fun _ => hover
      · exact fun hended => nomatch hended
      · refine fun _ => ⟨?_, hover⟩
        show s.done + 1 = 1
        rw [h.running hdraining]
      · exact fun hended => nomatch hended

/-- Until the task is done there is something to do. -/
theorem TaskOk.progress (h : TaskOk files s) (hdraining : s.draining = true) :
    ∃ a t, OnlyLastRefused s a ∧ uploadTaskStep files s a = some t := by
  have hfile : ∀ {i : ℕ} {run : FileRun}, s.runs[i]? = some run →
      ∃ file, files[i]? = some file := by
    intro i run hrun
    have hlt := (List.getElem?_eq_some_iff.mp hrun).1
    rw [h.length] at hlt
    exact ⟨_, List.getElem?_eq_getElem hlt⟩
  by_cases hactive : ∃ run ∈ s.runs, run.isActive = true
  · obtain ⟨run, hmem, hactive⟩ := hactive
    obtain ⟨i, hrun⟩ := List.getElem?_of_mem hmem
    obtain ⟨file, hfile⟩ := hfile hrun
    have hnext : ∃ act run', act.cancels = false ∧ run.step file s.cancelled act = some run' :=
      FileRun.exists_step file hactive
    obtain ⟨act, run', hkeeps, hstep⟩ := hnext
    refine ⟨.file i act, _, ?_, by simp only [uploadTaskStep, hrun, hfile, hstep]; rfl⟩
    cases act with
    | refused result => cases hkeeps
    | _ => exact trivial
  · have hidle : ∀ run ∈ s.runs, run.isActive = false := fun run hmem =>
      eq_false_of_ne_true fun hbusy => hactive ⟨run, hmem, hbusy⟩
    by_cases hwaiting : FileRun.waiting ∈ s.runs
    · obtain ⟨i, hi⟩ := Option.isSome_iff_exists.mp (List.isSome_idxOf?.mpr hwaiting)
      obtain ⟨hlt, hat, -⟩ := List.idxOf?_eq_some_iff.mp hi
      obtain ⟨file, hfile⟩ := hfile (List.getElem?_eq_some_iff.mpr ⟨hlt, hat⟩)
      have hfree : s.runs.countP FileRun.isActive < UploadIsolate.concurrency := by
        rw [List.countP_eq_zero.mpr fun run hmem => by rw [hidle run hmem]; nofun]
        decide
      have htake : (uploadTaskStep files s .take).isSome = true := by
        simp only [uploadTaskStep, hi, hfile, if_pos hfree, if_pos (h.registered hdraining)]
        rfl
      obtain ⟨t, htake⟩ := Option.isSome_iff_exists.mp htake
      exact ⟨.take, t, trivial, htake⟩
    · refine ⟨.done, _, trivial, if_pos ?_⟩
      rw [hdraining, Bool.true_and, List.all_eq_true]
      intro run hmem
      have hrun := hidle run hmem
      cases run with
      | waiting => exact (hwaiting hmem).elim
      | skipped => rfl
      | finished ends => rfl
      | failed ends => rfl
      | _ => cases hrun

end Runs

/-! ## §5  After a cancellation, and to the end -/

section Ends

variable {files : List HttpUploadFile} {s t : UploadTaskState} {a : UploadTaskAct}

/-- The events that a file is started. -/
def UploadTaskState.starts (s : UploadTaskState) : List (ℕ × HttpUploadEvent) :=
  s.log.filter fun entry => entry.2.isStarted

theorem FileMoves.starts {i : ℕ} {run run' : FileRun} {sent : List HttpUploadEvent}
    (h : FileMoves s t i run run' sent) (hsent : ∀ event ∈ sent, event.isStarted = false) :
    t.starts = s.starts := by
  have hnone : (sent.map fun event => (i, event)).filter (fun entry => entry.2.isStarted) = [] := by
    refine List.filter_eq_nil_iff.mpr fun entry hentry => ?_
    obtain ⟨event, hevent, rfl⟩ := List.mem_map.mp hentry
    simp [hsent event hevent]
  rw [UploadTaskState.starts, h.log, List.filter_append, hnone, List.append_nil]
  rfl

theorem isStarted_of_mem_closing {fileId : String} {run : FileRun} {event : HttpUploadEvent}
    (h : event ∈ run.closing fileId) : event.isStarted = false := by
  cases run with
  | finished ends => rw [List.mem_singleton.mp h]; rfl
  | failed ends => rw [List.mem_singleton.mp h]; rfl
  | _ => cases h

/-- Without its token the task starts nothing more. -/
theorem starts_step (hregistered : s.registered = false)
    (hstep : uploadTaskStep files s a = some t) : t.registered = false ∧ t.starts = s.starts := by
  cases a with
  | take =>
      obtain ⟨i, file, -, -, ⟨hnot, -⟩ | ⟨-, hmoves⟩⟩ := take_cases hstep
      · rw [hregistered] at hnot
        cases hnot
      · exact ⟨hmoves.registered.trans hregistered, hmoves.starts nofun⟩
  | file i act =>
      obtain ⟨file, run, run', -, -, -, hmoves⟩ := file_cases hstep
      exact ⟨hmoves.registered.trans hregistered,
        hmoves.starts fun event hevent => isStarted_of_mem_closing hevent⟩
  | cancel =>
      simp only [uploadTaskStep, hregistered, Bool.false_eq_true, if_false] at hstep
      obtain rfl := Option.some.inj hstep
      exact ⟨hregistered, rfl⟩
  | done =>
      obtain ⟨-, -, rfl⟩ := done_cases hstep
      exact ⟨rfl, rfl⟩

theorem starts_after_cancel {u : UploadTaskState}
    (hcancel : uploadTaskStep files s .cancel = some t)
    (hrun : Reach (uploadTaskStep files) t u) : u.starts = s.starts := by
  have hcancelled : t.registered = false ∧ t.starts = s.starts := by
    by_cases hregistered : s.registered = true
    · simp only [uploadTaskStep, if_pos hregistered] at hcancel
      obtain rfl := Option.some.inj hcancel
      exact ⟨rfl, rfl⟩
    · simp only [uploadTaskStep, if_neg hregistered] at hcancel
      obtain rfl := Option.some.inj hcancel
      exact ⟨eq_false_of_ne_true hregistered, rfl⟩
  have hafter : u.registered = false ∧ u.starts = s.starts := by
    refine hrun.invariant (I := fun u => u.registered = false ∧ u.starts = s.starts) hcancelled
      fun m a n hm _ hstep => ?_
    obtain ⟨hregistered, hstarts⟩ := starts_step hm.1 hstep
    exact ⟨hregistered, hstarts.trans hm.2⟩
  exact hafter.2

def UploadTaskAct.isCancel : UploadTaskAct → Bool
  | .cancel => true
  | _ => false

/-- The steps that are left for the task. -/
def UploadTaskState.left (s : UploadTaskState) : ℕ :=
  (s.runs.map FileRun.left).sum + if s.draining then 1 else 0

/-- A file that is being sent has attempts left. -/
def Retrying (s : UploadTaskState) : Prop :=
  ∀ {i : ℕ} {run : FileRun}, s.runs[i]? = some run → run.isActive = true →
    attemptsVerdict run.ends = .again

theorem FileMoves.left {i : ℕ} {run run' : FileRun} {sent : List HttpUploadEvent}
    (h : FileMoves s t i run run' sent) (hless : run'.left < run.left) : t.left < s.left := by
  have hsum := TaskPool.sum_map_set FileRun.left run' h.found
  rw [UploadTaskState.left, UploadTaskState.left, h.runs, h.draining]
  omega

theorem FileMoves.retrying {i : ℕ} {run run' : FileRun} {sent : List HttpUploadEvent}
    (h : FileMoves s t i run run' sent) (hs : Retrying s)
    (hrun : run'.isActive = true → attemptsVerdict run'.ends = .again) : Retrying t := by
  intro j other hother hactive
  obtain ⟨-, rfl⟩ | ⟨-, hother⟩ := h.run_cases hother
  · exact hrun hactive
  · exact hs hother hactive

theorem uploadTaskStep_left (hs : Retrying s) (hstep : uploadTaskStep files s a = some t) :
    Retrying t ∧ (a.isCancel = false → t.left < s.left) ∧ t.left ≤ s.left := by
  cases a with
  | take =>
      obtain ⟨i, file, -, -, ⟨-, hmoves⟩ | ⟨-, hmoves⟩⟩ := take_cases hstep
      · have hless := hmoves.left (Nat.lt_succ_self 9)
        exact ⟨hmoves.retrying hs fun _ => rfl, fun _ => hless, Nat.le_of_lt hless⟩
      · have hless := hmoves.left (Nat.succ_pos 9)
        exact ⟨hmoves.retrying hs nofun, fun _ => hless, Nat.le_of_lt hless⟩
  | file i act =>
      obtain ⟨file, run, run', -, hrun, -, hmoves⟩ := file_cases hstep
      obtain ⟨hactive, hcases⟩ := FileRun.step_cases hrun
      have hagain := hs hmoves.found hactive
      have hless := hmoves.left (FileRun.step_left hagain hrun)
      refine ⟨hmoves.retrying hs fun hactive' => ?_, fun _ => hless, Nat.le_of_lt hless⟩
      obtain ⟨-, hends, -, -⟩ | ⟨last, rfl, -, -, -⟩ := hcases
      · rw [hends]
        exact hagain
      · have hstands : some AttemptVerdict.again = _ :=
          (FileRun.stands_of_isActive hactive').symm.trans FileRun.settle_stands
        rw [FileRun.settle_ends]
        exact (Option.some.inj hstands).symm
  | cancel =>
      simp only [uploadTaskStep] at hstep
      split_ifs at hstep
      · obtain rfl := Option.some.inj hstep
        exact ⟨hs, nofun, Nat.le_refl _⟩
      · obtain rfl := Option.some.inj hstep
        exact ⟨hs, nofun, Nat.le_refl _⟩
  | done =>
      obtain ⟨hdraining, -, rfl⟩ := done_cases hstep
      have hless : UploadTaskState.left
          { s with draining := false, done := s.done + 1, registered := false } < s.left := by
        simp only [UploadTaskState.left, hdraining, Bool.false_eq_true, if_true, if_false]
        omega
      exact ⟨hs, fun _ => hless, Nat.le_of_lt hless⟩

/-- A task of `n` files takes `10 * n + 1` steps at most, cancelled or not. -/
theorem uploadTask_bounded {acts : List UploadTaskAct}
    (hexec : exec (uploadTaskStep files) (.init files) acts = some s) :
    (acts.filter fun a => !a.isCancel).length ≤ 10 * files.length + 1 := by
  have hdecreases : Decreases (uploadTaskStep files) (fun s => Retrying s) (fun a => !a.isCancel)
      UploadTaskState.left := by
    constructor
    · exact fun s a t hs hstep => (uploadTaskStep_left hs hstep).1
    · exact fun s a t hs hown hstep => (uploadTaskStep_left hs hstep).2.1 (by simpa using hown)
    · exact fun s a t hs hstep => (uploadTaskStep_left hs hstep).2.2
  have hinit : Retrying (.init files) := by
    intro i run hrun hactive
    obtain ⟨file, -, rfl⟩ := List.mem_map.mp (List.mem_of_getElem? hrun)
    cases hactive
  refine Nat.le_trans (hdecreases.length_le hinit hexec) (Nat.le_of_eq ?_)
  show ((files.map fun _ => FileRun.waiting).map FileRun.left).sum + 1 = 10 * files.length + 1
  rw [List.map_map]
  show (files.map fun _ => 10).sum + 1 = _
  rw [List.map_const', List.sum_replicate_nat, Nat.mul_comm]

end Ends

/-- **Files are uploaded on their own**, while the last file only is refused its bytes. Each
has the events of what its own requests have come to, none of them cancelled; until the task
is done, once, it can go on, and not forever; and after a cancellation nothing is started. -/
theorem uploads_isolated (files : List HttpUploadFile) {s : UploadTaskState}
    (hrun : Run (uploadTaskStep files) OnlyLastRefused (.init files) s) :
    (∀ i file, files[i]? = some file → ∃ run, s.runs[i]? = some run ∧ run.Own ∧
        fileEvents i s.log = run.events file.fileId ∧ (s.draining = false → run.isOver = true)) ∧
      (s.draining = true → s.done = 0 ∧
        ∃ a t, OnlyLastRefused s a ∧ uploadTaskStep files s a = some t) ∧
      (s.draining = false → s.done = 1) ∧
      (∀ acts, exec (uploadTaskStep files) (.init files) acts = some s →
        (acts.filter fun a => !a.isCancel).length ≤ 10 * files.length + 1) ∧
      ∀ t u, uploadTaskStep files s .cancel = some t → Reach (uploadTaskStep files) t u →
        u.starts = s.starts := by
  have hok : TaskOk files s :=
    hrun.invariant (taskOk_init files) fun _ _ _ h hguard hstep => h.step hguard hstep
  refine ⟨?_, ?_, ?_, ?_, ?_⟩
  · intro i file hfile
    have hlt := (List.getElem?_eq_some_iff.mp hfile).1
    rw [← hok.length] at hlt
    have hrun := List.getElem?_eq_getElem hlt
    exact ⟨_, hrun, hok.own hrun, hok.events hfile hrun, fun hended => (hok.ended hended).2 hrun⟩
  · exact fun hdraining => ⟨hok.running hdraining, hok.progress hdraining⟩
  · exact fun hended => (hok.ended hended).1
  · exact fun acts hexec => uploadTask_bounded hexec
  · exact fun t u hcancel hreach => starts_after_cancel hcancel hreach

/-! ## §6  A file that fails another -/

namespace TwoUploads

def files : List HttpUploadFile :=
  [⟨"t0", "message", none, some [104, 105], 2⟩, ⟨"t1", "photo", some "/photo.jpg", none, 4096⟩]

def starts : List UploadTaskAct := [.take, .take, .file 0 .begin, .file 1 .begin]

/-- The first file is rejected after its bytes were taken. -/
def late : List UploadTaskAct :=
  starts ++ [.file 0 .added, .file 0 (.ended (.status 403)), .file 1 (.ended .ok), .done]

/-- The first file is rejected before its bytes are added. -/
def early : List UploadTaskAct :=
  starts ++ [.file 0 (.refused (.status 403)), .file 1 (.ended .cancelled)]

end TwoUploads

open TwoUploads in
theorem uploads_isolated_two : ∃ s, Run (uploadTaskStep files) OnlyLastRefused (.init files) s ∧
    s.done = 1 ∧ (∃ run, s.runs[1]? = some run ∧ run.isOver = true) := by
  obtain ⟨s, hexec, hended⟩ := exists_of_exec_any (uploadTaskStep files) (.init files) late
    (fun s => !s.draining) (by decide +kernel)
  have hended : s.draining = false := by simpa using hended
  have hguarded : Guarded (uploadTaskStep files) OnlyLastRefused (.init files) late :=
    guarded_of_forall
      (P := fun a => a ∈ late)
      (fun s a ha => by
        simp only [late, starts, List.cons_append, List.nil_append, List.mem_cons,
          List.not_mem_nil, or_false] at ha
        rcases ha with rfl | rfl | rfl | rfl | rfl | rfl | rfl | rfl <;> exact trivial)
      (fun a ha => ha) _
  have hrun := run_of_exec hexec hguarded
  obtain ⟨hfiles, -, hdone, -, -⟩ := uploads_isolated files hrun
  obtain ⟨run, hat, -, -, hover⟩ := hfiles 1 _ rfl
  exact ⟨s, hrun, hdone hended, run, hat, hover hended⟩

open TwoUploads in
/-- **A file fails another**: without any cancellation of the task the request for the second
file is cancelled, for the first was rejected early. -/
theorem uploads_not_isolated :
    ¬ ∀ (files : List HttpUploadFile) (s : UploadTaskState),
      Run (uploadTaskStep files) (fun _ a => a ≠ .cancel) (.init files) s →
        ∀ (i : ℕ) (run : FileRun), s.runs[i]? = some run → run.Own := by
  intro h
  obtain ⟨s, hexec, hfailed⟩ := exists_of_exec_any (uploadTaskStep files) (.init files) early
    (fun s => decide (s.runs[1]? = some (FileRun.failed [.ended .cancelled]))) (by decide +kernel)
  have hfailed : s.runs[1]? = some (FileRun.failed [.ended .cancelled]) :=
    of_decide_eq_true hfailed
  have hguarded : Guarded (uploadTaskStep files) (fun _ a => a ≠ .cancel) (.init files) early :=
    guarded_of_forall (P := fun a => a ≠ UploadTaskAct.cancel) (fun _ _ ha => ha) (by decide) _
  have hrun := run_of_exec hexec hguarded
  have hown := h files s hrun 1 _ hfailed
  exact (hown.uncancelled _ List.mem_cons_self).2 rfl

end FireBoxTransfer

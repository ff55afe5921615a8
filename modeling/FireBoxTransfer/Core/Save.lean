import FireBoxTransfer.Core.ServerV2
import FireBoxTransfer.Framework.Json
import FireBoxTransfer.Framework.Progress

/-!
# Saving an upload

The handler of a request forwards the chunks of its body through a bounded channel to a
task that writes them to a file. Either of them may stop first: the body may break off,
the file may refuse a write, the request may be dropped. What the server records and what
the application is told come from one outcome, which the handler forms at its end.
-/

namespace FireBoxTransfer

open Runs

/-! ## §1  Files and requests -/

/-- A file that is written from its start: what it held before, what is on the disk, and
what was written and is still in a buffer. -/
structure OpenFile where
  old : Bytes
  flushed : Bytes
  pending : Bytes
deriving DecidableEq

namespace OpenFile

def content (f : OpenFile) : Bytes := f.flushed ++ f.old.drop f.flushed.length

/-- All that was written. -/
def accepted (f : OpenFile) : Bytes := f.flushed ++ f.pending

/-- The buffer takes a chunk, and `n` of its bytes reach the disk. -/
def write (f : OpenFile) (chunk : Bytes) (n : ℕ) : OpenFile :=
  { f with
    flushed := f.flushed ++ (f.pending ++ chunk).take n
    pending := (f.pending ++ chunk).drop n }

def flush (f : OpenFile) : OpenFile := { f with flushed := f.accepted, pending := [] }

/-- `set_len` at the end of what was written. -/
def truncate (f : OpenFile) : OpenFile := { f with old := [] }

@[simp] theorem accepted_write (f : OpenFile) (chunk : Bytes) (n : ℕ) :
    (f.write chunk n).accepted = f.accepted ++ chunk := by
  simp [write, accepted, List.append_assoc, List.take_append_drop]

@[simp] theorem accepted_flush (f : OpenFile) : f.flush.accepted = f.accepted := by
  simp [flush, accepted]

end OpenFile

/-- How an operation on a file ends; `n` bytes of the buffer reach the disk. -/
inductive Io where
  | ok (n : ℕ)
  | err (n : ℕ) (text : String)
deriving DecidableEq

/-- A frame of the body of a request. -/
inductive Frame where
  | data (bytes : Bytes)
  | trailers
  | error
deriving DecidableEq

def Frame.bytes : Frame → Bytes
  | .data bytes => bytes
  | .trailers | .error => []

def bodyBytes (frames : List Frame) : Bytes := frames.flatMap Frame.bytes

theorem bodyBytes_concat (frames : List Frame) (frame : Frame) :
    bodyBytes (frames ++ [frame]) = bodyBytes frames ++ frame.bytes := by
  rw [bodyBytes, List.flatMap_append]
  simp [bodyBytes]

/-- Where the server writes a file itself. -/
inductive SaveTarget where
  | path (path : String)
  | fd
deriving DecidableEq

/-- What `save_req_to_target` is called with; `initial` is what the target holds before. -/
structure SaveRequest where
  target : SaveTarget
  fileSize : ℕ
  expectedSha256 : Option String
  body : List Frame
  initial : Option Bytes

def uploadChannelCapacity : ℕ := 16

/-! ## §2  The two tasks -/

/-- The awaits of `save_req_to_target`. -/
inductive SaveHandler where
  /-- The next frame of the body. -/
  | forwarding (rest : List Frame)
  /-- Room in the channel. -/
  | sending (bytes : Bytes) (rest : List Frame)
  /-- The channel is closed; the result of the writer. -/
  | awaiting (streamError : Bool)
  | done (result : SaveResult)
  /-- The request was dropped. -/
  | dropped
deriving DecidableEq

/-- The awaits of `write_file_from_receiver`. -/
inductive SaveWriter where
  | opening
  | receiving
  | truncating
  | ended (result : Except String Unit)
deriving DecidableEq

structure SaveState where
  handler : SaveHandler
  /-- All that was forwarded; the hash is of these bytes. -/
  hashed : Bytes
  queue : List Bytes
  txDropped : Bool
  writer : SaveWriter
  written : ℕ
  file : Option OpenFile
  /-- The errors of the operations on the file. -/
  ioErrors : List String
  /-- `result_tx`, seen from the application. -/
  app : Oneshot (Except String Unit)
deriving DecidableEq

def SaveRequest.init (r : SaveRequest) : SaveState where
  handler := .forwarding r.body
  hashed := []
  queue := []
  txDropped := false
  writer := .opening
  written := 0
  file := none
  ioErrors := []
  app := .waiting

/-- The writer closes the channel when it ends. -/
def SaveState.rxClosed (s : SaveState) : Bool := s.writer matches .ended _

/-- What is at the target. -/
def SaveState.disk (r : SaveRequest) (s : SaveState) : Option Bytes :=
  match s.file with
  | none => r.initial
  | some file => some file.content

inductive UploadSaveAct where
  | handler
  | writer (io : Io)
  | drop
deriving DecidableEq

section Steps

variable (toHex : Bytes → String) (r : SaveRequest)

/-- The hash of the bytes is the one that was given, in small or capital letters. -/
def SaveRequest.hashMatches (bytes : Bytes) : Bool :=
  match r.expectedSha256 with
  | some expected => (toHex bytes).toList.map Char.toLower = expected.toList.map Char.toLower
  | none => true

/-- `'outcome` -/
def saveOutcome (streamError : Bool) (written : Except String Unit) (hashed : Bytes) :
    SaveResult × Except String Unit :=
  match streamError, written with
  | true, .error e => (.failed, .error e)
  | true, .ok _ => (.failed, .error "Upload aborted")
  | false, .error e => (.failed, .error e)
  | false, .ok _ =>
      if r.hashMatches toHex hashed then (.success, .ok ())
      else (.hashMismatch, .error "Checksum mismatch")

def handlerStep (s : SaveState) : Option SaveState :=
  match s.handler with
  | .forwarding [] => some { s with handler := .awaiting false, txDropped := true }
  | .forwarding (.data bytes :: rest) =>
      if bytes = [] then some { s with handler := .forwarding rest }
      else some { s with handler := .sending bytes rest, hashed := s.hashed ++ bytes }
  | .forwarding (.trailers :: rest) => some { s with handler := .forwarding rest }
  | .forwarding (.error :: _) => some { s with handler := .awaiting true, txDropped := true }
  | .sending bytes rest =>
      if s.rxClosed then some { s with handler := .awaiting true, txDropped := true }
      else if s.queue.length < uploadChannelCapacity then
        some { s with handler := .forwarding rest, queue := s.queue ++ [bytes] }
      else none
  | .awaiting streamError =>
      match s.writer with
      | .ended written =>
          let (result, answer) := saveOutcome toHex r streamError written s.hashed
          some { s with handler := .done result, app := .sent answer }
      | _ => none
  | .done _ | .dropped => none

def SaveState.fails (s : SaveState) (text : String) : SaveState :=
  { s with writer := .ended (.error text) }

def openTarget (s : SaveState) : Io → SaveState
  | .ok _ =>
      match r.target with
      | .path _ => { s with writer := .receiving, file := some ⟨[], [], []⟩ }
      | .fd => { s with writer := .receiving, file := some ⟨r.initial.getD [], [], []⟩ }
  | .err _ e =>
      match r.target with
      | .path path =>
          { s.fails ("Failed to create " ++ path ++ ": " ++ e) with ioErrors := s.ioErrors ++ [e] }
      -- a descriptor is open already
      | .fd => { s with writer := .receiving, file := some ⟨r.initial.getD [], [], []⟩ }

def writeChunk (s : SaveState) (chunk : Bytes) : Io → SaveState
  | .ok n => { s with file := s.file.map (·.write chunk n) }
  | .err n e =>
      { s.fails ("Failed to write file: " ++ e) with
        file := s.file.map (·.write chunk n), ioErrors := s.ioErrors ++ [e] }

def flushFile (s : SaveState) : Io → SaveState
  | .ok _ =>
      let s := { s with file := s.file.map OpenFile.flush }
      if s.written ≠ r.fileSize then
        s.fails ("Expected " ++ toString r.fileSize ++ " bytes, received " ++ toString s.written)
      else { s with writer := .truncating }
  | .err n e =>
      { s.fails ("Failed to flush file: " ++ e) with
        file := s.file.map (·.write [] n), ioErrors := s.ioErrors ++ [e] }

def writerStep (s : SaveState) (io : Io) : Option SaveState :=
  match s.writer with
  | .opening => some (openTarget r s io)
  | .receiving =>
      match s.queue with
      | chunk :: queue =>
          let s := { s with queue, written := s.written + chunk.length }
          if s.written > r.fileSize then
            some (s.fails ("Expected " ++ toString r.fileSize ++ " bytes, received at least " ++
              toString s.written))
          else some (writeChunk s chunk io)
      | [] => if s.txDropped then some (flushFile r s io) else none
  | .truncating =>
      match io with
      | .ok _ => some { s with writer := .ended (.ok ()), file := s.file.map OpenFile.truncate }
      -- the length is set on a best effort
      | .err _ _ => some { s with writer := .ended (.ok ()) }
  | .ended _ => none

def uploadSaveStep (s : SaveState) : UploadSaveAct → Option SaveState
  | .handler => handlerStep toHex r s
  | .writer io => writerStep r s io
  | .drop =>
      match s.handler with
      | .done _ | .dropped => none
      | _ => some { s with handler := .dropped, txDropped := true, app := .dropped }

end Steps

/-! ## §3  What holds of the writer -/

section Facts

variable {toHex : Bytes → String} {r : SaveRequest} {s t : SaveState}

def SaveHandler.isDone : SaveHandler → Bool
  | .done _ => true
  | _ => false

def SaveHandler.inHand : SaveHandler → Bytes
  | .sending bytes _ => bytes
  | _ => []

/-- What is on its way to the writer. -/
def SaveState.inFlight (s : SaveState) : Bytes := s.queue.flatten ++ s.handler.inHand

/-- What an opened file holds; a path is truncated. -/
def SaveRequest.oldContent (r : SaveRequest) : Bytes :=
  match r.target with
  | .path _ => []
  | .fd => r.initial.getD []

/-- The writer has what was forwarded but for what is on its way; it fails for a reason. -/
inductive WriterOk (r : SaveRequest) (s : SaveState) : Prop where
  | opening (pc : s.writer = .opening) (file : s.file = none) (written : s.written = 0)
      (errors : s.ioErrors = []) (bytes : s.hashed = s.inFlight)
  | receiving (f : OpenFile) (pc : s.writer = .receiving) (file : s.file = some f)
      (old : f.old = r.oldContent) (written : s.written = f.accepted.length)
      (fits : s.written ≤ r.fileSize) (errors : s.ioErrors = [])
      (bytes : s.hashed = f.accepted ++ s.inFlight)
  | saved (f : OpenFile) (pc : s.writer = .truncating ∨ s.writer = .ended (.ok ()))
      (closed : s.txDropped = true) (file : s.file = some f)
      (old : f.old = [] ∨ f.old = r.oldContent) (size : f.flushed.length = r.fileSize)
      (errors : s.ioErrors = []) (bytes : s.hashed = f.flushed)
  | failed (text : String) (pc : s.writer = .ended (.error text))
      (cause : s.ioErrors ≠ [] ∨ r.fileSize < s.hashed.length ∨
        s.txDropped = true ∧ s.hashed.length ≠ r.fileSize)

/-- The channel is open as long as the handler forwards. -/
def SaveState.Forwards (s : SaveState) : Prop := s.txDropped = false ∨ s.handler.inHand = []

theorem openTarget_ok (h : WriterOk r s) (hpc : s.writer = .opening) (io : Io) :
    WriterOk r (openTarget r s io) := by
  cases h with
  | opening _ file written errors bytes =>
      have hopen :
          WriterOk r { s with writer := .receiving, file := some ⟨r.oldContent, [], []⟩ } := by
        refine .receiving _ rfl rfl rfl ?_ ?_ errors ?_
        · exact written
        · exact written ▸ Nat.zero_le _
        · exact bytes
      cases htarget : r.target with
      | fd =>
          have hold : r.oldContent = r.initial.getD [] := by rw [SaveRequest.oldContent, htarget]
          rw [hold] at hopen
          cases io <;> (unfold openTarget; rw [htarget]; exact hopen)
      | path path =>
          have hold : r.oldContent = [] := by rw [SaveRequest.oldContent, htarget]
          rw [hold] at hopen
          unfold openTarget
          rw [htarget]
          cases io with
          | ok n => exact hopen
          | err n e => exact .failed _ rfl (.inl (List.append_ne_nil_of_right_ne_nil _ (by simp)))
  | receiving f pc => rw [hpc] at pc; cases pc
  | saved f pc => rw [hpc] at pc; rcases pc with pc | pc <;> cases pc
  | failed text pc => rw [hpc] at pc; cases pc

theorem writerStep_ok {io : Io} (h : WriterOk r s) (hforwards : s.Forwards)
    (hstep : writerStep r s io = some t) : WriterOk r t := by
  cases h with
  | opening pc file written errors bytes =>
      unfold writerStep at hstep
      rw [pc] at hstep
      obtain rfl := Option.some.inj hstep
      exact openTarget_ok (.opening pc file written errors bytes) pc io
  | receiving f pc file old written fits errors bytes =>
      unfold writerStep at hstep
      rw [pc] at hstep
      cases hqueue : s.queue with
      | cons chunk queue =>
          simp only [hqueue] at hstep
          have hbytes : s.hashed = f.accepted ++ chunk ++ (queue.flatten ++ s.handler.inHand) := by
            rw [bytes, SaveState.inFlight, hqueue, List.flatten_cons]
            simp only [List.append_assoc]
          have hlength : s.written + chunk.length = (f.accepted ++ chunk).length := by
            rw [List.length_append, written]
          split_ifs at hstep with hlarge
          · obtain rfl := Option.some.inj hstep
            refine .failed _ rfl (.inr (.inl ?_))
            show r.fileSize < s.hashed.length
            rw [hbytes, List.length_append, ← hlength]
            omega
          · obtain rfl := Option.some.inj hstep
            cases io with
            | ok n =>
                refine .receiving (f.write chunk n) rfl ?_ old ?_ ?_ errors ?_
                · exact congrArg (Option.map (·.write chunk n)) file
                · rw [OpenFile.accepted_write]
                  exact hlength
                · exact Nat.le_of_not_lt hlarge
                · rw [OpenFile.accepted_write]
                  exact hbytes
            | err n e =>
                exact .failed _ rfl (.inl (List.append_ne_nil_of_right_ne_nil _ (by simp)))
      | nil =>
          simp only [hqueue] at hstep
          split_ifs at hstep with hclosed
          obtain rfl := Option.some.inj hstep
          -- nothing is on its way any more
          have hhand : s.handler.inHand = [] := by
            rcases hforwards with hopen | hhand
            · rw [hclosed] at hopen
              cases hopen
            · exact hhand
          have hbytes : s.hashed = f.accepted := by
            rw [bytes, SaveState.inFlight, hqueue, hhand]
            simp
          cases io with
          | err n e =>
              exact .failed _ rfl (.inl (List.append_ne_nil_of_right_ne_nil _ (by simp)))
          | ok n =>
              unfold flushFile
              simp only
              split_ifs with hsize
              · refine .failed _ rfl (.inr (.inr ⟨hclosed, ?_⟩))
                show s.hashed.length ≠ r.fileSize
                rw [hbytes, ← written]
                exact hsize
              · refine .saved f.flush (.inl rfl) hclosed ?_ (.inr old) ?_ errors hbytes
                · exact congrArg (Option.map OpenFile.flush) file
                · show f.accepted.length = r.fileSize
                  rw [← written]
                  exact not_not.mp hsize
  | saved f pc closed file old size errors bytes =>
      unfold writerStep at hstep
      rcases pc with pc | pc
      · rw [pc] at hstep
        cases io with
        | ok n =>
            obtain rfl := Option.some.inj hstep
            have hfile : s.file.map OpenFile.truncate = some f.truncate := by rw [file]; rfl
            exact .saved f.truncate (.inr rfl) closed hfile (.inl rfl) size errors bytes
        | err n e =>
            obtain rfl := Option.some.inj hstep
            exact .saved f (.inr rfl) closed file old size errors bytes
      · rw [pc] at hstep
        cases hstep
  | failed text pc cause =>
      unfold writerStep at hstep
      rw [pc] at hstep
      cases hstep

/-! ## §4  What holds of the handler -/

/-- The body came to its end, it has the declared size, and the file took all of it. -/
def SaveRequest.Complete (r : SaveRequest) (s : SaveState) : Prop :=
  Frame.error ∉ r.body ∧ (bodyBytes r.body).length = r.fileSize ∧ s.ioErrors = []

/-- **What a result says**, for the server, for the application and for the file. A
descriptor that cannot be truncated keeps what it held beyond the new content. -/
structure SaveVerdict (toHex : Bytes → String) (r : SaveRequest) (s : SaveState)
    (result : SaveResult) : Prop where
  success : result = .success ↔ r.Complete s ∧ r.hashMatches toHex (bodyBytes r.body) = true
  mismatch : result = .hashMismatch ↔
    r.Complete s ∧ r.hashMatches toHex (bodyBytes r.body) = false
  failed : result = .failed ↔ ¬ r.Complete s
  content : r.Complete s → s.disk r = some (bodyBytes r.body) ∨
    r.target = .fd ∧ s.disk r = some (bodyBytes r.body ++ (r.initial.getD []).drop r.fileSize)
  app : s.app = .sent (.ok ()) ↔ result = .success

/-- What the handler has read, and what it knows when it stopped. -/
inductive HandlerOk (toHex : Bytes → String) (r : SaveRequest) (s : SaveState) : Prop where
  | forwarding (seen rest : List Frame) (alive : s.txDropped = false)
      (pc : s.handler = .forwarding rest) (body : r.body = seen ++ rest) (intact : .error ∉ seen)
      (bytes : s.hashed = bodyBytes seen)
  | sending (seen rest : List Frame) (chunk : Bytes) (alive : s.txDropped = false)
      (pc : s.handler = .sending chunk rest) (body : r.body = seen ++ rest)
      (intact : .error ∉ seen) (bytes : s.hashed = bodyBytes seen)
  | closed (pc : s.handler = .awaiting false) (closed : s.txDropped = true)
      (intact : .error ∉ r.body) (bytes : s.hashed = bodyBytes r.body)
  | broken (pc : s.handler = .awaiting true) (closed : s.txDropped = true)
      (cause : .error ∈ r.body ∨ s.ioErrors ≠ [] ∨ r.fileSize < (bodyBytes r.body).length)
  | done (result : SaveResult) (pc : s.handler = .done result)
      (ended : ∃ written, s.writer = .ended written) (verdict : SaveVerdict toHex r s result)

theorem HandlerOk.forwards (h : HandlerOk toHex r s) : s.Forwards := by
  cases h with
  | forwarding seen rest alive => exact .inl alive
  | sending seen rest chunk alive => exact .inl alive
  | closed pc => exact .inr (by rw [pc]; rfl)
  | broken pc => exact .inr (by rw [pc]; rfl)
  | done result pc => exact .inr (by rw [pc]; rfl)

/-- The writer changes nothing that the handler relies on. -/
structure WriterFrame (s t : SaveState) : Prop where
  handler : t.handler = s.handler
  hashed : t.hashed = s.hashed
  txDropped : t.txDropped = s.txDropped
  app : t.app = s.app
  errors : s.ioErrors ≠ [] → t.ioErrors ≠ []

theorem openTarget_frame (io : Io) : WriterFrame s (openTarget r s io) := by
  unfold openTarget
  cases io <;> cases r.target <;> constructor <;> simp [SaveState.fails]

theorem writeChunk_frame (chunk : Bytes) (io : Io) : WriterFrame s (writeChunk s chunk io) := by
  unfold writeChunk
  cases io <;> constructor <;> simp [SaveState.fails]

theorem flushFile_frame (io : Io) : WriterFrame s (flushFile r s io) := by
  unfold flushFile
  cases io with
  | ok n =>
      simp only
      split_ifs <;> constructor <;> simp [SaveState.fails]
  | err n e => constructor <;> simp [SaveState.fails]

theorem writerStep_frame {io : Io} (hstep : writerStep r s io = some t) : WriterFrame s t := by
  unfold writerStep at hstep
  split at hstep
  · obtain rfl := Option.some.inj hstep
    exact openTarget_frame io
  · split at hstep
    · simp only at hstep
      split_ifs at hstep
      · obtain rfl := Option.some.inj hstep
        exact ⟨rfl, rfl, rfl, rfl, id⟩
      · obtain rfl := Option.some.inj hstep
        obtain ⟨hhandler, hhashed, hclosed, happ, herrors⟩ := writeChunk_frame _ io
        exact ⟨hhandler, hhashed, hclosed, happ, herrors⟩
    · split_ifs at hstep
      obtain rfl := Option.some.inj hstep
      exact flushFile_frame io
  · split at hstep
    · obtain rfl := Option.some.inj hstep
      exact ⟨rfl, rfl, rfl, rfl, id⟩
    · obtain rfl := Option.some.inj hstep
      exact ⟨rfl, rfl, rfl, rfl, id⟩
  · cases hstep

theorem writerStep_running {io : Io} (hstep : writerStep r s io = some t)
    (written : Except String Unit) : s.writer ≠ .ended written := by
  intro hended
  unfold writerStep at hstep
  rw [hended] at hstep
  cases hstep

/-- **The handler** when the writer takes a step. -/
theorem HandlerOk.writerStep {io : Io} (h : HandlerOk toHex r s)
    (hstep : writerStep r s io = some t) : HandlerOk toHex r t := by
  obtain ⟨hhandler, hhashed, hclosed, happ, herrors⟩ := writerStep_frame hstep
  cases h with
  | forwarding seen rest alive pc body intact bytes =>
      exact .forwarding seen rest (hclosed.trans alive) (hhandler.trans pc) body intact
        (hhashed.trans bytes)
  | sending seen rest chunk alive pc body intact bytes =>
      exact .sending seen rest chunk (hclosed.trans alive) (hhandler.trans pc) body intact
        (hhashed.trans bytes)
  | closed pc closed intact bytes =>
      exact .closed (hhandler.trans pc) (hclosed.trans closed) intact (hhashed.trans bytes)
  | broken pc closed cause =>
      exact .broken (hhandler.trans pc) (hclosed.trans closed)
        (cause.imp_right (Or.imp_left herrors))
  | done result pc ended =>
      obtain ⟨written, hended⟩ := ended
      exact absurd hended (writerStep_running hstep written)

theorem bodyBytes_le {seen rest : List Frame} (hbody : r.body = seen ++ rest) :
    (bodyBytes seen).length ≤ (bodyBytes r.body).length := by
  rw [hbody, bodyBytes, bodyBytes, List.flatMap_append, List.length_append]
  exact Nat.le_add_right _ _

/-- The handler only forwards more, and that only to a channel that is open. -/
structure HandlerFrame (s t : SaveState) : Prop where
  writer : t.writer = s.writer
  written : t.written = s.written
  file : t.file = s.file
  errors : t.ioErrors = s.ioErrors
  grows : ∃ more, t.hashed = s.hashed ++ more ∧
    ((∃ written, s.writer = .ended written) ∨ t.inFlight = s.inFlight ++ more)
  closed : s.txDropped = true → t.txDropped = true ∧ t.hashed = s.hashed

/-- Nothing is forwarded. -/
theorem HandlerFrame.still (hhand : s.handler.inHand = []) (handler : SaveHandler)
    (hnew : handler.inHand = []) (txDropped : Bool)
    (hclosed : s.txDropped = true → txDropped = true) (app : Oneshot (Except String Unit)) :
    HandlerFrame s { s with handler, txDropped, app } := by
  refine ⟨rfl, rfl, rfl, rfl, ⟨[], (List.append_nil _).symm, .inr ?_⟩, fun h => ⟨hclosed h, rfl⟩⟩
  rw [SaveState.inFlight, SaveState.inFlight, hhand, hnew, List.append_nil, List.append_nil]

theorem handlerStep_frame (h : HandlerOk toHex r s) (hstep : handlerStep toHex r s = some t) :
    HandlerFrame s t := by
  unfold handlerStep at hstep
  cases h with
  | forwarding seen rest alive pc =>
      have hhand : s.handler.inHand = [] := by rw [pc]; rfl
      rw [pc] at hstep
      cases rest with
      | nil =>
          obtain rfl := Option.some.inj hstep
          exact .still hhand _ rfl _ (fun _ => rfl) _
      | cons frame rest =>
          cases frame with
          | data bytes =>
              simp only at hstep
              split_ifs at hstep
              · obtain rfl := Option.some.inj hstep
                exact .still hhand _ rfl _ id _
              · obtain rfl := Option.some.inj hstep
                refine ⟨rfl, rfl, rfl, rfl, ⟨bytes, rfl, .inr ?_⟩, fun hclosed => ?_⟩
                · rw [SaveState.inFlight, SaveState.inFlight, hhand, List.append_nil]
                  rfl
                · exact absurd (alive.symm.trans hclosed) Bool.false_ne_true
          | trailers =>
              obtain rfl := Option.some.inj hstep
              exact .still hhand _ rfl _ id _
          | error =>
              obtain rfl := Option.some.inj hstep
              exact .still hhand _ rfl _ (fun _ => rfl) _
  | sending seen rest chunk alive pc =>
      rw [pc] at hstep
      simp only at hstep
      have hclosed : s.txDropped = true → t.txDropped = true ∧ t.hashed = s.hashed :=
        fun hclosed => absurd (alive.symm.trans hclosed) Bool.false_ne_true
      split_ifs at hstep with hended hroom
      · obtain rfl := Option.some.inj hstep
        have hwriter : ∃ written, s.writer = .ended written := by
          unfold SaveState.rxClosed at hended
          split at hended
          · exact ⟨_, by assumption⟩
          · cases hended
        exact ⟨rfl, rfl, rfl, rfl, ⟨[], (List.append_nil _).symm, .inl hwriter⟩, hclosed⟩
      · obtain rfl := Option.some.inj hstep
        -- what was in hand is in the channel
        refine ⟨rfl, rfl, rfl, rfl, ⟨[], (List.append_nil _).symm, .inr ?_⟩, hclosed⟩
        rw [SaveState.inFlight, SaveState.inFlight, pc]
        simp [SaveHandler.inHand]
  | closed pc closed =>
      have hhand : s.handler.inHand = [] := by rw [pc]; rfl
      rw [pc] at hstep
      simp only at hstep
      split at hstep
      · obtain rfl := Option.some.inj hstep
        exact .still hhand _ rfl _ id _
      · cases hstep
  | broken pc closed =>
      have hhand : s.handler.inHand = [] := by rw [pc]; rfl
      rw [pc] at hstep
      simp only at hstep
      split at hstep
      · obtain rfl := Option.some.inj hstep
        exact .still hhand _ rfl _ id _
      · cases hstep
  | done result pc =>
      rw [pc] at hstep
      cases hstep

/-- **The writer** when the handler takes a step. -/
theorem WriterOk.handlerStep (h : WriterOk r s) (hh : HandlerOk toHex r s)
    (hstep : handlerStep toHex r s = some t) : WriterOk r t := by
  obtain ⟨hwriter, hwritten, hfile, herrors, ⟨more, hhashed, hmore⟩, hclosed⟩ :=
    handlerStep_frame hh hstep
  cases h with
  | opening pc file written errors bytes =>
      have hflight := hmore.resolve_left fun ⟨w, hw⟩ => by rw [hw] at pc; cases pc
      refine .opening (hwriter.trans pc) (hfile.trans file) (hwritten.trans written)
        (herrors.trans errors) ?_
      rw [hhashed, hflight, bytes]
  | receiving f pc file old written fits errors bytes =>
      have hflight := hmore.resolve_left fun ⟨w, hw⟩ => by rw [hw] at pc; cases pc
      refine .receiving f (hwriter.trans pc) (hfile.trans file) old (hwritten.trans written)
        (hwritten ▸ fits) (herrors.trans errors) ?_
      rw [hhashed, hflight, bytes, List.append_assoc]
  | saved f pc closed file old size errors bytes =>
      exact .saved f (hwriter ▸ pc) (hclosed closed).1 (hfile.trans file) old size
        (herrors.trans errors) ((hclosed closed).2.trans bytes)
  | failed text pc cause =>
      refine .failed text (hwriter.trans pc) ?_
      obtain hio | hlarge | ⟨closed, hsize⟩ := cause
      · exact .inl (herrors ▸ hio)
      · refine .inr (.inl (Nat.lt_of_lt_of_le hlarge ?_))
        rw [hhashed, List.length_append]
        exact Nat.le_add_right _ _
      · obtain ⟨hdropped, hsame⟩ := hclosed closed
        exact .inr (.inr ⟨hdropped, hsame ▸ hsize⟩)

/-! ## §5  The outcome -/

/-- The writer that ended well has the whole of a body that came to its end. -/
theorem WriterOk.complete (h : WriterOk r s) (hended : s.writer = .ended (.ok ()))
    (hintact : Frame.error ∉ r.body) (hbytes : s.hashed = bodyBytes r.body) :
    r.Complete s ∧ (s.disk r = some (bodyBytes r.body) ∨ r.target = .fd ∧
      s.disk r = some (bodyBytes r.body ++ (r.initial.getD []).drop r.fileSize)) := by
  cases h with
  | opening pc => rw [hended] at pc; cases pc
  | receiving f pc => rw [hended] at pc; cases pc
  | failed text pc => rw [hended] at pc; cases pc
  | saved f pc closed file old size errors bytes =>
      have hflushed : f.flushed = bodyBytes r.body := bytes.symm.trans hbytes
      refine ⟨⟨hintact, hflushed ▸ size, errors⟩, ?_⟩
      have hdisk : s.disk r = some (bodyBytes r.body ++ f.old.drop r.fileSize) := by
        rw [SaveState.disk, file]
        simp only [OpenFile.content]
        rw [size, hflushed]
      rw [hdisk]
      rcases old with hold | hold
      · left
        rw [hold, List.drop_nil, List.append_nil]
      · rw [hold, SaveRequest.oldContent]
        cases r.target with
        | path path =>
            left
            simp
        | fd => exact .inr ⟨rfl, rfl⟩

/-- The writer that failed did not have a complete body. -/
theorem WriterOk.incomplete (h : WriterOk r s) {text : String}
    (hended : s.writer = .ended (.error text)) (hbytes : s.hashed = bodyBytes r.body) :
    ¬ r.Complete s := by
  rintro ⟨-, hsize, herrors⟩
  cases h with
  | opening pc => rw [hended] at pc; cases pc
  | receiving f pc => rw [hended] at pc; cases pc
  | saved f pc =>
      rw [hended] at pc
      rcases pc with pc | pc <;> cases pc
  | failed text pc cause =>
      rw [hbytes] at cause
      obtain hio | hlarge | ⟨-, hne⟩ := cause
      · exact hio herrors
      · omega
      · exact hne hsize

/-- A request that failed. -/
theorem SaveVerdict.of_incomplete {text : String} (h : ¬ r.Complete s)
    (happ : s.app = .sent (.error text)) : SaveVerdict toHex r s .failed where
  success := ⟨nofun, fun hc => absurd hc.1 h⟩
  mismatch := ⟨nofun, fun hc => absurd hc.1 h⟩
  failed := ⟨fun _ => h, fun _ => rfl⟩
  content hc := absurd hc h
  app := by
    rw [happ]
    exact ⟨nofun, nofun⟩

/-- **The outcome** that the handler forms. -/
theorem saveOutcome_verdict {streamError : Bool} {written : Except String Unit}
    (h : WriterOk r s) (hh : HandlerOk toHex r s) (hpc : s.handler = .awaiting streamError)
    (hended : s.writer = .ended written) :
    SaveVerdict toHex r
      { s with
        handler := .done (saveOutcome toHex r streamError written s.hashed).1
        app := .sent (saveOutcome toHex r streamError written s.hashed).2 }
      (saveOutcome toHex r streamError written s.hashed).1 := by
  cases hh with
  | forwarding seen rest alive pc => rw [hpc] at pc; cases pc
  | sending seen rest chunk alive pc => rw [hpc] at pc; cases pc
  | done result pc => rw [hpc] at pc; cases pc
  | broken pc closed cause =>
      rw [hpc] at pc
      cases pc
      have hincomplete : ¬ r.Complete s := by
        rintro ⟨hintact, hsize, herrors⟩
        obtain herror | hio | hlarge := cause
        · exact hintact herror
        · exact hio herrors
        · omega
      cases written with
      | error text => exact .of_incomplete hincomplete rfl
      | ok u => exact .of_incomplete hincomplete rfl
  | closed pc closed intact bytes =>
      rw [hpc] at pc
      cases pc
      cases written with
      | error text =>
          have hincomplete := h.incomplete hended bytes
          exact .of_incomplete hincomplete rfl
      | ok u =>
          obtain ⟨hcomplete, hcontent⟩ := h.complete hended intact bytes
          have houtcome : saveOutcome toHex r false (.ok u) s.hashed =
              if r.hashMatches toHex (bodyBytes r.body) then (.success, .ok ())
              else (.hashMismatch, .error "Checksum mismatch") := by
            rw [← bytes]
            rfl
          rw [houtcome]
          by_cases hmatches : r.hashMatches toHex (bodyBytes r.body) = true
          · rw [if_pos hmatches]
            exact ⟨iff_of_true rfl ⟨hcomplete, hmatches⟩,
              ⟨nofun, fun hc => absurd hmatches (Bool.eq_false_iff.mp hc.2)⟩,
              ⟨nofun, fun hc => absurd hcomplete hc⟩, fun _ => hcontent, iff_of_true rfl rfl⟩
          · rw [if_neg hmatches]
            refine ⟨⟨nofun, fun hc => absurd hc.2 hmatches⟩,
              iff_of_true rfl ⟨hcomplete, Bool.eq_false_iff.mpr hmatches⟩,
              ⟨nofun, fun hc => absurd hcomplete hc⟩, fun _ => hcontent, ⟨nofun, nofun⟩⟩

/-- The frames that were read, one more of which is not an error. -/
theorem read_one {seen rest : List Frame} {frame : Frame} (hbody : r.body = seen ++ frame :: rest)
    (hintact : .error ∉ seen) (hframe : frame ≠ .error) :
    r.body = (seen ++ [frame]) ++ rest ∧ .error ∉ seen ++ [frame] := by
  constructor
  · rw [hbody, List.append_assoc]
    rfl
  · intro hmem
    rcases List.mem_append.mp hmem with hmem | hmem
    · exact hintact hmem
    · exact hframe (List.mem_singleton.mp hmem).symm

/-- **The handler** when it takes a step. -/
theorem HandlerOk.handlerStep (hw : WriterOk r s) (h : HandlerOk toHex r s)
    (hstep : handlerStep toHex r s = some t) : HandlerOk toHex r t := by
  have hself := h
  unfold FireBoxTransfer.handlerStep at hstep
  cases h with
  | forwarding seen rest alive pc body intact bytes =>
      rw [pc] at hstep
      cases rest with
      | nil =>
          obtain rfl := Option.some.inj hstep
          rw [List.append_nil] at body
          exact .closed rfl rfl (body ▸ intact) (body ▸ bytes)
      | cons frame rest =>
          cases frame with
          | data chunk =>
              obtain ⟨hbody, hintact⟩ := read_one body intact nofun
              simp only at hstep
              split_ifs at hstep with hempty
              · obtain rfl := Option.some.inj hstep
                refine .forwarding _ rest alive rfl hbody hintact ?_
                rw [bodyBytes_concat, hempty]
                exact bytes.trans (List.append_nil _).symm
              · obtain rfl := Option.some.inj hstep
                refine .sending _ rest chunk alive rfl hbody hintact ?_
                rw [bodyBytes_concat, ← bytes]
                rfl
          | trailers =>
              obtain ⟨hbody, hintact⟩ := read_one body intact nofun
              obtain rfl := Option.some.inj hstep
              refine .forwarding _ rest alive rfl hbody hintact ?_
              rw [bodyBytes_concat]
              exact bytes.trans (List.append_nil _).symm
          | error =>
              obtain rfl := Option.some.inj hstep
              refine .broken rfl rfl (.inl ?_)
              rw [body]
              exact List.mem_append_right _ List.mem_cons_self
  | sending seen rest chunk alive pc body intact bytes =>
      rw [pc] at hstep
      simp only at hstep
      split_ifs at hstep with hended hroom
      · obtain rfl := Option.some.inj hstep
        -- the writer does not stop without a reason
        refine .broken rfl rfl (.inr ?_)
        unfold SaveState.rxClosed at hended
        cases hw with
        | opening hpc => rw [hpc] at hended; cases hended
        | receiving f hpc => rw [hpc] at hended; cases hended
        | saved f hpc closed => exact absurd (alive.symm.trans closed) Bool.false_ne_true
        | failed text hpc cause =>
            obtain hio | hlarge | ⟨closed, -⟩ := cause
            · exact .inl hio
            · refine .inr (Nat.lt_of_lt_of_le hlarge ?_)
              rw [bytes]
              exact bodyBytes_le body
            · exact absurd (alive.symm.trans closed) Bool.false_ne_true
      · obtain rfl := Option.some.inj hstep
        exact .forwarding seen rest alive rfl body intact bytes
  | closed pc closed intact bytes =>
      rw [pc] at hstep
      simp only at hstep
      split at hstep
      · rename_i written hended
        obtain rfl := Option.some.inj hstep
        exact .done _ rfl ⟨written, hended⟩ (saveOutcome_verdict hw hself pc hended)
      · cases hstep
  | broken pc closed cause =>
      rw [pc] at hstep
      simp only at hstep
      split at hstep
      · rename_i written hended
        obtain rfl := Option.some.inj hstep
        exact .done _ rfl ⟨written, hended⟩ (saveOutcome_verdict hw hself pc hended)
      · cases hstep
  | done result pc =>
      rw [pc] at hstep
      cases hstep

theorem handlerStep_app (hstep : handlerStep toHex r s = some t) :
    s.handler.isDone = false ∧ (t.handler.isDone = false → t.app = s.app) := by
  unfold handlerStep at hstep
  split at hstep
  case h_1 hpc | h_3 hpc | h_4 hpc =>
    obtain rfl := Option.some.inj hstep
    rw [hpc]
    exact ⟨rfl, fun _ => rfl⟩
  case h_2 hpc =>
    rw [hpc]
    split_ifs at hstep
    · obtain rfl := Option.some.inj hstep
      exact ⟨rfl, fun _ => rfl⟩
    · obtain rfl := Option.some.inj hstep
      exact ⟨rfl, fun _ => rfl⟩
  case h_5 hpc =>
    rw [hpc]
    split_ifs at hstep
    · obtain rfl := Option.some.inj hstep
      exact ⟨rfl, fun _ => rfl⟩
    · obtain rfl := Option.some.inj hstep
      exact ⟨rfl, fun _ => rfl⟩
  case h_6 hpc =>
    rw [hpc]
    split at hstep
    · obtain rfl := Option.some.inj hstep
      exact ⟨rfl, nofun⟩
    · cases hstep
  all_goals cases hstep

/-- **An upload that is saved**, at every moment: it was dropped and the application finds
its channel dropped, or both tasks are in order and the application waits for the end. -/
structure Saving (toHex : Bytes → String) (r : SaveRequest) (s : SaveState) : Prop where
  writer : s.handler ≠ .dropped → WriterOk r s
  handler : s.handler ≠ .dropped → HandlerOk toHex r s
  waiting : s.handler ≠ .dropped → s.handler.isDone = false → s.app = .waiting
  dropped : s.handler = .dropped → s.app = .dropped

theorem saving_init : Saving toHex r r.init where
  writer _ := .opening rfl rfl rfl rfl rfl
  handler _ := .forwarding [] r.body rfl rfl rfl List.not_mem_nil rfl
  waiting _ _ := rfl
  dropped := nofun

theorem Saving.step {a : UploadSaveAct} (h : Saving toHex r s)
    (hstep : uploadSaveStep toHex r s a = some t) :
    Saving toHex r t := by
  cases a with
  | handler =>
      change handlerStep toHex r s = some t at hstep
      have halive : s.handler ≠ .dropped := by
        intro hpc
        unfold handlerStep at hstep
        rw [hpc] at hstep
        cases hstep
      obtain ⟨hrunning, happ⟩ := handlerStep_app hstep
      have hok := (h.handler halive).handlerStep (h.writer halive) hstep
      refine ⟨fun _ => (h.writer halive).handlerStep (h.handler halive) hstep, fun _ => hok,
        fun _ hdone => (happ hdone).trans (h.waiting halive hrunning), fun hdropped => ?_⟩
      cases hok with
      | forwarding seen rest alive pc => rw [hdropped] at pc; cases pc
      | sending seen rest chunk alive pc => rw [hdropped] at pc; cases pc
      | closed pc => rw [hdropped] at pc; cases pc
      | broken pc => rw [hdropped] at pc; cases pc
      | done result pc => rw [hdropped] at pc; cases pc
  | writer io =>
      have hframe := writerStep_frame hstep
      refine ⟨fun halive => ?_, fun halive => ?_, fun halive hdone => ?_, fun hdropped => ?_⟩
      · rw [hframe.handler] at halive
        exact writerStep_ok (h.writer halive) (h.handler halive).forwards hstep
      · rw [hframe.handler] at halive
        exact (h.handler halive).writerStep hstep
      · rw [hframe.handler] at halive hdone
        exact hframe.app.trans (h.waiting halive hdone)
      · rw [hframe.handler] at hdropped
        exact hframe.app.trans (h.dropped hdropped)
  | drop =>
      simp only [uploadSaveStep] at hstep
      split at hstep
      · cases hstep
      · cases hstep
      · obtain rfl := Option.some.inj hstep
        exact ⟨fun halive => absurd rfl halive, fun halive => absurd rfl halive,
          fun halive => absurd rfl halive, fun _ => rfl⟩

theorem saving_of_run (hrun : Reach (uploadSaveStep toHex r) r.init s) : Saving toHex r s :=
  hrun.invariant saving_init fun _ _ _ h _ hstep => h.step hstep

end Facts

/-- **The result of a save**, for every target, body, schedule and failure of the file. A
request that is over was successful exactly if its body is complete, the file took all of it
and the hash is right, it is a mismatch exactly if only the hash is wrong, and it failed
otherwise; the file holds the body when it did not fail; and the application is told that
the file was saved exactly when the server records that it was. -/
theorem save_result (toHex : Bytes → String) (r : SaveRequest) {s : SaveState}
    (hrun : Reach (uploadSaveStep toHex r) r.init s) :
    (∀ result, s.handler = .done result → SaveVerdict toHex r s result ∧
      ∀ file : SessionFileV2, file.status = .inProgress →
        ((file.finalize result).status = .finished ↔ s.app = .sent (.ok ()))) ∧
      (s.app = .sent (.ok ()) → s.handler = .done .success) := by
  have hsaving := saving_of_run hrun
  have hverdict : ∀ result, s.handler = .done result → SaveVerdict toHex r s result := by
    intro result hdone
    have halive : s.handler ≠ .dropped := by
      rw [hdone]
      exact fun heq => by cases heq
    cases hsaving.handler halive with
    | forwarding seen rest alive pc => rw [hdone] at pc; cases pc
    | sending seen rest chunk alive pc => rw [hdone] at pc; cases pc
    | closed pc => rw [hdone] at pc; cases pc
    | broken pc => rw [hdone] at pc; cases pc
    | done result' pc _ verdict =>
        rw [hdone] at pc
        cases pc
        exact verdict
  refine ⟨fun result hdone => ⟨hverdict result hdone, fun file hfile => ?_⟩, fun happ => ?_⟩
  · rw [(hverdict result hdone).app, SessionFileV2.finalize, if_pos hfile]
    cases result with
    | success => exact iff_of_true rfl rfl
    | failed => exact ⟨fun heq => (by cases heq), fun heq => by cases heq⟩
    | hashMismatch =>
        refine ⟨fun hfinal => ?_, fun heq => by cases heq⟩
        simp only [finalStatus] at hfinal
        split_ifs at hfinal
  · by_cases hdropped : s.handler = .dropped
    · rw [hsaving.dropped hdropped] at happ
      cases happ
    · by_cases hdone : s.handler.isDone = true
      · cases hhandler : s.handler with
        | done result =>
            rw [(hverdict result hhandler).app.mp happ]
        | forwarding rest => rw [hhandler] at hdone; cases hdone
        | sending bytes rest => rw [hhandler] at hdone; cases hdone
        | awaiting streamError => rw [hhandler] at hdone; cases hdone
        | dropped => exact absurd hhandler hdropped
      · rw [hsaving.waiting hdropped (Bool.eq_false_iff.mpr hdone)] at happ
        cases happ

namespace Sample

def toHex (bytes : Bytes) : String := if bytes = [1, 2, 3] then "ab" else ""

/-- Three bytes in two chunks. -/
def threeBytes : SaveRequest where
  target := .path "/in/a.txt"
  fileSize := 3
  expectedSha256 := some "AB"
  body := [.data [1, 2], .trailers, .data [3]]
  initial := some [9, 9, 9, 9]

def threeBytesSaved : List UploadSaveAct :=
  [.handler, .handler, .writer (.ok 0), .writer (.ok 1), .handler, .handler, .handler, .handler,
    .writer (.ok 0), .writer (.ok 0), .writer (.ok 0), .handler]

end Sample

theorem save_result_threeBytes : ∃ s : SaveState, s.handler = .done .success ∧
    s.disk Sample.threeBytes = some [1, 2, 3] ∧ s.app = .sent (.ok ()) := by
  obtain ⟨s, hs, hdone⟩ := exists_of_exec_any
    (uploadSaveStep Sample.toHex Sample.threeBytes) Sample.threeBytes.init
    Sample.threeBytesSaved (fun s => s.handler = .done .success) (by decide)
  have hhandler : s.handler = .done .success := of_decide_eq_true hdone
  obtain ⟨hverdict, -⟩ := (save_result _ Sample.threeBytes (reach_of_exec hs)).1 _ hhandler
  refine ⟨s, hhandler, ?_, hverdict.app.mpr rfl⟩
  exact (hverdict.content (hverdict.success.mp rfl).1).resolve_right fun h => nomatch h.1

/-! ## §6  What is left to do -/

section Ends

variable {toHex : Bytes → String} {r : SaveRequest} {s t : SaveState}

def SaveHandler.size : SaveHandler → ℕ
  | .forwarding rest => 4 * rest.length + 2
  | .sending _ rest => 4 * rest.length + 5
  | .awaiting _ => 1
  | .done _ | .dropped => 0

def SaveWriter.size : SaveWriter → ℕ
  | .opening => 3
  | .receiving => 2
  | .truncating => 1
  | .ended _ => 0

/-- What is left to do. -/
def SaveState.size (s : SaveState) : ℕ := s.handler.size + 2 * s.queue.length + s.writer.size

theorem handlerStep_size (hstep : handlerStep toHex r s = some t) : t.size < s.size := by
  unfold handlerStep at hstep
  unfold SaveState.size
  split at hstep
  case h_1 hpc | h_3 hpc | h_4 hpc =>
    obtain rfl := Option.some.inj hstep
    rw [hpc]
    simp only [SaveHandler.size, List.length_cons, List.length_nil]
    omega
  case h_2 hpc =>
    rw [hpc]
    split_ifs at hstep
    · obtain rfl := Option.some.inj hstep
      simp only [SaveHandler.size, List.length_cons]
      omega
    · obtain rfl := Option.some.inj hstep
      simp only [SaveHandler.size, List.length_cons]
      omega
  case h_5 hpc =>
    rw [hpc]
    split_ifs at hstep
    · obtain rfl := Option.some.inj hstep
      simp only [SaveHandler.size]
      omega
    · obtain rfl := Option.some.inj hstep
      simp only [SaveHandler.size, List.length_append, List.length_singleton]
      omega
  case h_6 hpc =>
    rw [hpc]
    split at hstep
    · obtain rfl := Option.some.inj hstep
      simp only [SaveHandler.size]
      omega
    · cases hstep
  all_goals cases hstep

theorem openTarget_size (io : Io) (hpc : s.writer = .opening) :
    (openTarget r s io).size < s.size := by
  unfold openTarget SaveState.size
  rw [hpc]
  cases io <;> cases r.target <;> simp [SaveState.fails, SaveWriter.size]

theorem writeChunk_size (chunk : Bytes) (io : Io) : (writeChunk s chunk io).size ≤ s.size := by
  unfold writeChunk SaveState.size
  cases io <;> simp [SaveState.fails, SaveWriter.size]

theorem flushFile_size (io : Io) (hpc : s.writer = .receiving) :
    (flushFile r s io).size < s.size := by
  unfold flushFile SaveState.size
  rw [hpc]
  cases io with
  | ok n =>
      simp only
      split_ifs <;> simp [SaveState.fails, SaveWriter.size]
  | err n e => simp [SaveState.fails, SaveWriter.size]

theorem writerStep_size {io : Io} (hstep : writerStep r s io = some t) : t.size < s.size := by
  unfold writerStep at hstep
  split at hstep
  case h_1 hpc =>
    obtain rfl := Option.some.inj hstep
    exact openTarget_size io hpc
  case h_2 hpc =>
    split at hstep
    · rename_i chunk queue hqueue
      -- a chunk left the channel
      have htaken : ∀ u : SaveState, u.handler = s.handler → u.queue = queue →
          u.writer.size ≤ s.writer.size → u.size < s.size := by
        intro u hhandler huqueue hwriter
        rw [SaveState.size, SaveState.size, hhandler, huqueue, hqueue, List.length_cons]
        omega
      simp only at hstep
      split_ifs at hstep
      · obtain rfl := Option.some.inj hstep
        exact htaken _ rfl rfl (Nat.zero_le _)
      · obtain rfl := Option.some.inj hstep
        exact Nat.lt_of_le_of_lt (writeChunk_size chunk io) (htaken _ rfl rfl (Nat.le_refl _))
    · split_ifs at hstep
      obtain rfl := Option.some.inj hstep
      exact flushFile_size io hpc
  case h_3 hpc =>
    split at hstep
    · obtain rfl := Option.some.inj hstep
      rw [SaveState.size, SaveState.size, hpc]
      simp [SaveWriter.size]
    · obtain rfl := Option.some.inj hstep
      rw [SaveState.size, SaveState.size, hpc]
      simp [SaveWriter.size]
  case h_4 => cases hstep

theorem uploadSaveStep_size {a : UploadSaveAct} (hstep : uploadSaveStep toHex r s a = some t) :
    t.size < s.size := by
  cases a with
  | handler => exact handlerStep_size hstep
  | writer io => exact writerStep_size hstep
  | drop =>
      simp only [uploadSaveStep] at hstep
      split at hstep
      · cases hstep
      · cases hstep
      · rename_i hdone hdropped
        obtain rfl := Option.some.inj hstep
        have hpos : 0 < s.handler.size := by
          cases hpc : s.handler with
          | done result => exact absurd hpc (hdone result)
          | dropped => exact absurd hpc hdropped
          | forwarding rest => exact Nat.succ_pos _
          | sending bytes rest => exact Nat.succ_pos _
          | awaiting streamError => exact Nat.succ_pos _
        show 0 + 2 * s.queue.length + s.writer.size <
          s.handler.size + 2 * s.queue.length + s.writer.size
        omega

/-- The writer can go on unless it waits for a chunk. -/
theorem exists_writerStep (hrunning : s.rxClosed = false)
    (hchunk : s.queue ≠ [] ∨ s.txDropped = true) :
    ∃ t, writerStep r s (.ok 0) = some t := by
  unfold writerStep
  cases hpc : s.writer with
  | opening => exact ⟨_, rfl⟩
  | receiving =>
      cases hqueue : s.queue with
      | cons chunk queue =>
          simp only
          split_ifs <;> exact ⟨_, rfl⟩
      | nil =>
          simp only
          rw [if_pos (hchunk.resolve_left (not_not.mpr hqueue))]
          exact ⟨_, rfl⟩
  | truncating => exact ⟨_, rfl⟩
  | ended written =>
      unfold SaveState.rxClosed at hrunning
      rw [hpc] at hrunning
      cases hrunning

end Ends

end FireBoxTransfer

import FireBoxTransfer.Core.Discovery
import FireBoxTransfer.Framework.Program
import Mathlib.Data.BitVec

/-!
# The send task of the command line

One task sends the picked files to a device: prepare-upload, then one upload
for each file of the response, in the order of the file names. Whatever the
receiver answers, the task is to end with one `SendEnded`. The ids of the
response come from the receiver and are looked up among the picked files; an id
that was never offered makes the task panic, and nothing ends.
-/

namespace FireBoxTransfer

open Discovery (Dial)
open Program (await)

namespace SendTask

/-! ## §1  What is offered -/

/-- What is read of a picked file. -/
structure FileStat where
  fileName : String
  size : BitVec 64
  fileType : String
  metadata : Option FileMetadata

/-- A picked path, with the id that is drawn for it; there is nothing to read
of a path that is no file. -/
structure PickedPath where
  path : String
  id : String
  stat : Option FileStat

/-- The files of a send and their paths, under the same ids. -/
structure Offer where
  files : AssocMap String FileDto
  paths : AssocMap String String
  totalBytes : BitVec 64
  same_keys : ∀ id, id ∈ files.keys ↔ id ∈ paths.keys

def Offer.empty : Offer := ⟨.empty, .empty, 0, fun _ => Iff.rfl⟩

def Offer.add (offer : Offer) (picked : PickedPath) : Offer :=
  match picked.stat with
  | none => offer
  | some stat =>
      { files := offer.files.insert picked.id
          { id := picked.id
            fileName := stat.fileName
            size := stat.size
            fileType := stat.fileType
            sha256 := none
            preview := none
            metadata := stat.metadata }
        paths := offer.paths.insert picked.id picked.path
        totalBytes := offer.totalBytes + stat.size
        same_keys := fun id => by
          rw [AssocMap.mem_keys_insert, AssocMap.mem_keys_insert, offer.same_keys] }

def collectFiles (picked : List PickedPath) : Offer := picked.foldl .add .empty

/-! ## §2  The task -/

inductive ClientError where
  | statusCode (status : ℕ) (message : Option String)
  | cancelled
  | other (text : String)

structure PrepareUploadResultV2 where
  statusCode : ℕ
  response : Option PrepareUploadResponseDtoV2

/-- What the task tells the application. -/
inductive AppEvent where
  | sendSessionStarted (sessionId : String) (acceptedBytes : BitVec 64)
  | sendEnded
  | log (text : String)
deriving DecidableEq

inductive SendOp where
  | createClient (expectedFingerprint : Option String)
  | prepareUpload (dial : Dial) (payload : PrepareUploadRequestDtoV2)
  | upload (dial : Dial) (sessionId fileId token path : String)
  | cancel (dial : Dial) (sessionId : String)
  | elapsed
  | emit (event : AppEvent)

abbrev SendOp.Answer : SendOp → Type
  | .createClient _ => Except ClientError Unit
  | .prepareUpload _ _ => Except ClientError PrepareUploadResultV2
  | .upload _ _ _ _ _ => Except ClientError Unit
  | .cancel _ _ => Unit
  | .elapsed => ℕ
  | .emit _ => Unit

inductive Panic where
  | panic

/-- The task looks at whether the peer has cancelled. -/
abbrev SendM : Type → Type := Program Bool Panic SendOp SendOp.Answer

/-- How errors and numbers of bytes are written. -/
structure Display where
  error : ClientError → String
  bytes : BitVec 64 → String

def formatDuration (secs : ℕ) : String :=
  let (h, m, s) := (secs / 3600, secs % 3600 / 60, secs % 60)
  if h > 0 then s!"{h}h {m}m" else if m > 0 then s!"{m}m {s}s" else s!"{s}s"

def emit (event : AppEvent) : SendM Unit := await (SendOp.emit event)

def log (text : String) : SendM Unit := emit (.log text)

def createClient (expectedFingerprint : Option String) : SendM (Except ClientError Unit) :=
  await (SendOp.createClient expectedFingerprint)

def prepareUpload (dial : Dial) (payload : PrepareUploadRequestDtoV2) :
    SendM (Except ClientError PrepareUploadResultV2) :=
  await (SendOp.prepareUpload dial payload)

def upload (dial : Dial) (sessionId fileId token path : String) :
    SendM (Except ClientError Unit) :=
  await (SendOp.upload dial sessionId fileId token path)

def cancel (dial : Dial) (sessionId : String) : SendM Unit :=
  await (SendOp.cancel dial sessionId)

def elapsed : SendM ℕ := await SendOp.elapsed

def cancelledByPeer : SendM Bool := Program.get

/-- `map[id]`. -/
def index {α : Type} (m : AssocMap String α) (id : String) : SendM α :=
  match m.get? id with
  | some a => pure a
  | none => .throw .panic

/-- `sort_by_key`: with two ids or more, the key of each is looked at. -/
def sortByFileName (files : AssocMap String FileDto) (ids : List String) : SendM (List String) :=
  if ids.length < 2 then pure ids
  else
    match ids.mapM fun id => (files.get? id).map fun file => (file.fileName, id) with
    | some named => pure ((named.mergeSort fun a b => a.1 ≤ b.1).map Prod.snd)
    | none => .throw .panic

def reason (status : ℕ) (message : Option String) : String :=
  match status with
  | 401 => "PIN required (not supported by the CLI)"
  | 403 => "Declined"
  | 409 => "Blocked by another session"
  | 429 => "Too many requests"
  | status => s!"Request failed with status {status}" ++
      ((message.map fun message => s!": {message}").getD "")

/-- The sum over the ids that are known. -/
def acceptedBytes (files : AssocMap String FileDto) (ids : List String) : BitVec 64 :=
  ((ids.filterMap files.get?).map FileDto.size).sum

section Task

variable (display : Display) («alias» : String) (files : AssocMap String FileDto)
  (paths : AssocMap String String)

/-- The loop over the accepted files. -/
def uploadFiles (dial : Dial) (response : PrepareUploadResponseDtoV2) :
    ℕ → BitVec 64 → List String → SendM Unit
  | sentFiles, sentBytes, [] => do
      let secs ← elapsed
      log («alias» ++ s!": Sent {sentFiles} file" ++ (if sentFiles = 1 then "" else "s") ++
        s!" ({display.bytes sentBytes}, took {formatDuration secs})")
  | sentFiles, sentBytes, fileId :: fileIds => do
      let token ← index response.files fileId
      let file ← index files fileId
      let path ← index paths fileId
      match ← upload dial response.sessionId fileId token path with
      | .ok () => uploadFiles dial response (sentFiles + 1) (sentBytes + file.size) fileIds
      | .error .cancelled =>
          if ← cancelledByPeer then
            log («alias» ++ s!": Cancelled by receiver ({sentFiles} file(s) sent)")
          else
            -- cancelled here: the receiver does not know yet
            cancel dial response.sessionId
            log («alias» ++ s!": Cancelled ({sentFiles} file(s) sent)")
      | .error err =>
          log («alias» ++ s!": Failed to upload {file.fileName}: {display.error err}")
          cancel dial response.sessionId

/-- What follows the response of the receiver. -/
def sendAccepted (dial : Dial) (response : PrepareUploadResponseDtoV2) : SendM Unit := do
  let offered := files.entries.length
  emit (.sendSessionStarted response.sessionId (acceptedBytes files response.files.keys))
  if response.files.entries.length < offered then
    log («alias» ++ s!": receiver accepted {response.files.entries.length} of {offered} files")
  let fileIds ← sortByFileName files response.files.keys
  uploadFiles display «alias» files paths dial response 0 0 fileIds

def sendInner (info : RegisterDtoV2) (dial : Option Dial) : SendM Unit :=
  match dial with
  | none => log («alias» ++ ": No dialable address")
  | some dial => do
      match ← createClient dial.expectedFingerprint with
      | .error err => log («alias» ++ s!": Failed to create HTTP client: {display.error err}")
      | .ok () =>
          match ← prepareUpload dial ⟨info, files⟩ with
          | .ok prepared =>
              match prepared.response with
              | some response => sendAccepted display «alias» files paths dial response
              | none => log («alias» ++ ": all files were declined")
          | .error .cancelled => log («alias» ++ ": Cancelled")
          | .error (.statusCode status message) => log («alias» ++ s!": {reason status message}")
          | .error err => log («alias» ++ s!": {display.error err}")

/-- Sends the files to a device; without a channel there is no address to dial. -/
def runSend (info : RegisterDtoV2) (dial : Option Dial) : SendM Unit := do
  sendInner display «alias» files paths info dial
  emit .sendEnded

end Task

/-! ## §3  An execution -/

/-- What was told to the application, and the response of the receiver. -/
structure SendWorld where
  events : List AppEvent
  response : Option PrepareUploadResponseDtoV2

def SendWorld.start : SendWorld := ⟨[], none⟩

def responseOf : Except ClientError PrepareUploadResultV2 → Option PrepareUploadResponseDtoV2
  | .ok prepared => prepared.response
  | .error _ => none

/-- The network may answer anything. -/
def answers : (op : SendOp) → SendWorld → Except Panic op.Answer → SendWorld → Prop
  | .emit event, w, answer, w' => answer = .ok () ∧ w' = { w with events := w.events ++ [event] }
  | .prepareUpload _ _, w, answer, w' =>
      ∃ result, answer = .ok result ∧ w' = { w with response := responseOf result }
  | .createClient _, w, answer, w' | .upload _ _ _ _ _, w, answer, w' | .cancel _ _, w, answer, w'
  | .elapsed, w, answer, w' => (∃ result, answer = .ok result) ∧ w' = w

def sendSpec : Program.Spec Bool Panic SendOp SendOp.Answer SendWorld where
  mayRead _ := True
  reads w _ w' := w' = w
  mayCall _ _ := True
  answers := answers

/-- Every id of the response was offered. -/
def Known (files : AssocMap String FileDto) (response : Option PrepareUploadResponseDtoV2) : Prop :=
  ∀ r ∈ response, ∀ id ∈ r.files.keys, id ∈ files.keys

/-- The task has not ended, and has this response. -/
def Under (response : Option PrepareUploadResponseDtoV2) (w : SendWorld) : Prop :=
  .sendEnded ∉ w.events ∧ w.response = response

section Rules

variable {α : Type} {w : SendWorld} {E : Panic → SendWorld → Prop}
  {response : Option PrepareUploadResponseDtoV2} {display : Display} {«alias» : String}
  {files : AssocMap String FileDto} {paths : AssocMap String String} {dial : Dial}

theorem wp_emit {Q : Unit → SendWorld → Prop} {event : AppEvent}
    (h : Q () { w with events := w.events ++ [event] }) :
    Program.wp sendSpec (emit event) Q E w := by
  refine Program.wp_await trivial (fun _ w' hanswer => ?_) fun _ _ hanswer => ?_
  · rw [hanswer.2]
    exact h
  · exact absurd hanswer.1 nofun

/-- Events on the way do not end the task. -/
theorem wp_emit_under {event : AppEvent} (hevent : event ≠ .sendEnded) (h : Under response w) :
    Program.wp sendSpec (emit event) (fun _ => Under response) E w := by
  refine wp_emit ⟨?_, h.2⟩
  simp only [List.mem_append, List.mem_singleton, not_or]
  exact ⟨h.1, Ne.symm hevent⟩

theorem wp_log {text : String} (h : Under response w) :
    Program.wp sendSpec (log text) (fun _ => Under response) E w := wp_emit_under nofun h

/-- What leaves no trace may answer anything. -/
theorem wp_await_any {op : SendOp} {Q : op.Answer → SendWorld → Prop}
    (hop : ∀ answer w', answers op w answer w' → (∃ result, answer = .ok result) ∧ w' = w)
    (h : ∀ result, Q result w) : Program.wp sendSpec (await op) Q E w := by
  refine Program.wp_await trivial (fun result w' hanswer => ?_) fun _ _ hanswer => ?_
  · rw [(hop _ _ hanswer).2]
    exact h result
  · obtain ⟨_, hresult⟩ := (hop _ _ hanswer).1
    exact absurd hresult nofun

theorem wp_createClient {Q : Except ClientError Unit → SendWorld → Prop} {expected : Option String}
    (h : ∀ result, Q result w) : Program.wp sendSpec (createClient expected) Q E w :=
  wp_await_any (fun _ _ h => h) h

theorem wp_upload {Q : Except ClientError Unit → SendWorld → Prop}
    {sessionId fileId token path : String} (h : ∀ result, Q result w) :
    Program.wp sendSpec (upload dial sessionId fileId token path) Q E w :=
  wp_await_any (fun _ _ h => h) h

theorem wp_cancel {Q : Unit → SendWorld → Prop} {sessionId : String} (h : Q () w) :
    Program.wp sendSpec (cancel dial sessionId) Q E w :=
  wp_await_any (fun _ _ h => h) fun _ => h

theorem wp_elapsed {Q : ℕ → SendWorld → Prop} (h : ∀ secs, Q secs w) :
    Program.wp sendSpec elapsed Q E w :=
  wp_await_any (fun _ _ h => h) h

theorem wp_prepareUpload {Q : Except ClientError PrepareUploadResultV2 → SendWorld → Prop}
    {payload : PrepareUploadRequestDtoV2}
    (h : ∀ result, Q result { w with response := responseOf result }) :
    Program.wp sendSpec (prepareUpload dial payload) Q E w := by
  refine Program.wp_await trivial (fun result w' hanswer => ?_) fun _ _ hanswer => ?_
  · obtain ⟨result', hresult, rfl⟩ := hanswer
    obtain rfl := Except.ok.inj hresult
    exact h result
  · obtain ⟨_, hresult, -⟩ := hanswer
    exact absurd hresult nofun

theorem wp_index {m : AssocMap String α} {id : String} {Q : α → SendWorld → Prop}
    (hmem : id ∈ m.keys) (h : ∀ a, Q a w) : Program.wp sendSpec (index m id) Q E w := by
  obtain ⟨a, ha⟩ := AssocMap.mem_keys_iff.mp hmem
  unfold index
  rw [ha]
  exact Program.wp_pure.mpr (h a)

/-- An id that is not in the map makes the task panic. -/
theorem wp_index_panic {m : AssocMap String α} {id : String} {Q : α → SendWorld → Prop}
    (hmem : id ∉ m.keys) (h : E .panic w) : Program.wp sendSpec (index m id) Q E w := by
  have hnone : m.get? id = none := by
    cases hget : m.get? id with
    | none => rfl
    | some a => exact absurd (AssocMap.mem_keys_iff.mpr ⟨a, hget⟩) hmem
  unfold index
  rw [hnone]
  exact Program.wp_throw.mpr h

end Rules

/-! ## §4  The uploads -/

section Uploads

variable {w : SendWorld} {E : Panic → SendWorld → Prop} {display : Display} {«alias» : String}
  {files : AssocMap String FileDto} {paths : AssocMap String String} {dial : Dial}
  {response : PrepareUploadResponseDtoV2} {ids : List String}

/-- With known ids the loop ends, whatever the uploads come to. -/
theorem wp_uploadFiles {sentFiles : ℕ} {sentBytes : BitVec 64}
    (hids : ∀ id ∈ ids, id ∈ response.files.keys ∧ id ∈ files.keys ∧ id ∈ paths.keys)
    (h : Under (some response) w) :
    Program.wp sendSpec (uploadFiles display «alias» files paths dial response sentFiles sentBytes
      ids) (fun _ => Under (some response)) E w := by
  induction ids generalizing sentFiles sentBytes with
  | nil => exact Program.wp_bind.mpr (wp_elapsed fun _ => wp_log h)
  | cons fileId ids ih =>
      obtain ⟨⟨htoken, hfile, hpath⟩, hids⟩ := List.forall_mem_cons.mp hids
      refine Program.wp_bind.mpr (wp_index htoken fun token => ?_)
      refine Program.wp_bind.mpr (wp_index hfile fun file => ?_)
      refine Program.wp_bind.mpr (wp_index hpath fun path => ?_)
      refine Program.wp_bind.mpr (wp_upload fun result => ?_)
      cases result with
      | ok _ => exact ih hids
      | error err =>
          cases err with
          | cancelled =>
              refine Program.wp_bind.mpr (Program.wp_get trivial ?_)
              rintro byPeer _ rfl
              cases byPeer with
              | true => exact wp_log h
              | false => exact Program.wp_bind.mpr (wp_cancel (wp_log h))
          | statusCode status message =>
              exact Program.wp_bind.mpr (Program.wp_mono (wp_log h) (fun _ _ h => wp_cancel h)
                fun _ _ he => he)
          | other text =>
              exact Program.wp_bind.mpr (Program.wp_mono (wp_log h) (fun _ _ h => wp_cancel h)
                fun _ _ he => he)

theorem mapM_of_known (h : ∀ id ∈ ids, id ∈ files.keys) :
    ∃ named : List (String × String), (ids.mapM fun id =>
      (files.get? id).map fun file => (file.fileName, id)) = some named ∧
        named.map Prod.snd = ids := by
  induction ids with
  | nil => exact ⟨[], rfl, rfl⟩
  | cons id ids ih =>
      obtain ⟨hid, hids⟩ := List.forall_mem_cons.mp h
      obtain ⟨file, hfile⟩ := AssocMap.mem_keys_iff.mp hid
      obtain ⟨named, hnamed, hsnd⟩ := ih hids
      refine ⟨(file.fileName, id) :: named, ?_, ?_⟩
      · rw [List.mapM_cons, hfile, hnamed]
        rfl
      · rw [List.map_cons, hsnd]

theorem mapM_of_unknown {id : String} (hid : id ∈ ids) (h : id ∉ files.keys) :
    (ids.mapM fun id => (files.get? id).map fun file => (file.fileName, id)) = none := by
  induction ids with
  | nil => cases hid
  | cons first ids ih =>
      rw [List.mapM_cons]
      cases hget : files.get? first with
      | none => rfl
      | some file =>
          rcases List.mem_cons.mp hid with rfl | hid
          · exact absurd (AssocMap.mem_keys_iff.mpr ⟨file, hget⟩) h
          · rw [ih hid]
            rfl

theorem wp_sortByFileName {Q : List String → SendWorld → Prop}
    (hknown : ∀ id ∈ ids, id ∈ files.keys) (h : ∀ sorted, sorted.Perm ids → Q sorted w) :
    Program.wp sendSpec (sortByFileName files ids) Q E w := by
  unfold sortByFileName
  split_ifs
  · exact Program.wp_pure.mpr (h ids (.refl ids))
  · obtain ⟨named, hnamed, hsnd⟩ := mapM_of_known hknown
    rw [hnamed]
    refine Program.wp_pure.mpr (h _ ?_)
    rw [← hsnd]
    exact (named.mergeSort_perm _).map Prod.snd

/-- What is told of the response does not matter to the uploads. -/
theorem wp_sendAccepted {Q : Unit → SendWorld → Prop}
    (huploads : ∀ w, Under (some response) w → Program.wp sendSpec
      (do
        let fileIds ← sortByFileName files response.files.keys
        uploadFiles display «alias» files paths dial response 0 0 fileIds) Q E w)
    (h : Under (some response) w) :
    Program.wp sendSpec (sendAccepted display «alias» files paths dial response) Q E w := by
  unfold sendAccepted
  refine Program.wp_bind.mpr (Program.wp_mono (wp_emit_under nofun h) (fun _ w h => ?_)
    fun _ _ he => he)
  split_ifs
  · exact Program.wp_bind.mpr (Program.wp_mono (wp_log h) (fun _ w h => huploads w h)
      fun _ _ he => he)
  · exact huploads w h

/-- With known ids, what follows the response ends. -/
theorem wp_sendAccepted_known (hknown : ∀ id ∈ response.files.keys, id ∈ files.keys)
    (hpaths : ∀ id ∈ files.keys, id ∈ paths.keys) (h : Under (some response) w) :
    Program.wp sendSpec (sendAccepted display «alias» files paths dial response)
      (fun _ => Under (some response)) E w := by
  refine wp_sendAccepted (fun w h => ?_) h
  refine Program.wp_bind.mpr (wp_sortByFileName hknown fun sorted hsorted => ?_)
  refine wp_uploadFiles (fun id hid => ?_) h
  have hid := hsorted.mem_iff.mp hid
  exact ⟨hid, hknown id hid, hpaths id (hknown id hid)⟩

/-- An unknown id is looked up: by the sort if it is not alone, else by the
loop. -/
theorem wp_sendAccepted_unknown {id : String} (hid : id ∈ response.files.keys)
    (hunknown : id ∉ files.keys) (h : Under (some response) w) {Q : Unit → SendWorld → Prop} :
    Program.wp sendSpec (sendAccepted display «alias» files paths dial response) Q
      (fun _ => Under (some response)) w := by
  refine wp_sendAccepted (fun w h => ?_) h
  refine Program.wp_bind.mpr ?_
  unfold sortByFileName
  split_ifs with hlen
  · have halone : response.files.keys = [id] := by
      cases hkeys : response.files.keys with
      | nil =>
          rw [hkeys] at hid
          cases hid
      | cons first others =>
          rw [hkeys, List.length_cons] at hlen
          obtain rfl : others = [] := List.length_eq_zero_iff.mp (by omega)
          rw [hkeys] at hid
          rw [List.mem_singleton.mp hid]
    rw [halone]
    refine Program.wp_pure.mpr ?_
    refine Program.wp_bind.mpr (wp_index hid fun token => ?_)
    exact Program.wp_bind.mpr (wp_index_panic hunknown h)
  · rw [mapM_of_unknown hid hunknown]
    exact Program.wp_throw.mpr h

end Uploads

/-! ## §5  The end of a send -/

section Ends

variable {w : SendWorld} {display : Display} {«alias» : String} {offer : Offer}
  {info : RegisterDtoV2} {dial : Option Dial}

/-- Without a response there is nothing unknown. -/
theorem wp_sendInner (h : Under none w) :
    Program.wp sendSpec (sendInner display «alias» offer.files offer.paths info dial)
      (fun _ w' => .sendEnded ∉ w'.events ∧ Known offer.files w'.response)
      (fun _ w' => .sendEnded ∉ w'.events ∧ ¬ Known offer.files w'.response) w := by
  have hlog : ∀ text (w : SendWorld), Under none w → Program.wp sendSpec (log text)
      (fun _ w' => .sendEnded ∉ w'.events ∧ Known offer.files w'.response)
      (fun _ w' => .sendEnded ∉ w'.events ∧ ¬ Known offer.files w'.response) w := by
    intro text w h
    refine Program.wp_mono (wp_log (E := fun _ _ => False) h) (fun _ w' h' => ⟨h'.1, ?_⟩)
      fun _ _ he => he.elim
    rw [h'.2]
    exact nofun
  unfold sendInner
  cases dial with
  | none => exact hlog _ w h
  | some dial =>
      refine Program.wp_bind.mpr (wp_createClient fun result => ?_)
      cases result with
      | error err => exact hlog _ w h
      | ok _ =>
          refine Program.wp_bind.mpr (wp_prepareUpload fun result => ?_)
          cases result with
          | error err =>
              have hnone : Under none { w with response := none } := ⟨h.1, rfl⟩
              cases err with
              | statusCode status message => exact hlog _ _ hnone
              | cancelled => exact hlog _ _ hnone
              | other text => exact hlog _ _ hnone
          | ok prepared =>
              obtain ⟨statusCode, response⟩ := prepared
              cases response with
              | none => exact hlog _ _ ⟨h.1, rfl⟩
              | some response =>
                  have hsome : Under (some response) { w with response := some response } :=
                    ⟨h.1, rfl⟩
                  have hkeys : ∀ id ∈ offer.files.keys, id ∈ offer.paths.keys := fun id =>
                    (offer.same_keys id).mp
                  by_cases hknown : ∀ id ∈ response.files.keys, id ∈ offer.files.keys
                  · refine Program.wp_mono (wp_sendAccepted_known (E := fun _ _ => False) hknown
                      hkeys hsome) (fun _ w' h' => ⟨h'.1, ?_⟩) fun _ _ he => he.elim
                    rw [h'.2]
                    rintro _ ⟨⟩
                    exact hknown
                  · have hsomeone := hknown
                    push Not at hsomeone
                    obtain ⟨id, hid, hunknown⟩ := hsomeone
                    refine Program.wp_mono (wp_sendAccepted_unknown (Q := fun _ _ => False) hid
                      hunknown hsome) (fun _ _ hq => hq.elim) fun _ w' h' => ⟨h'.1, ?_⟩
                    rw [h'.2]
                    exact fun hall => hknown (hall response rfl)

theorem wp_runSend (h : Under none w) :
    Program.wp sendSpec (runSend display «alias» offer.files offer.paths info dial)
      (fun _ w' => w'.events.count .sendEnded = 1 ∧ Known offer.files w'.response)
      (fun _ w' => .sendEnded ∉ w'.events ∧ ¬ Known offer.files w'.response) w := by
  refine Program.wp_bind.mpr (Program.wp_mono (wp_sendInner h) (fun _ w' h' => wp_emit ⟨?_, h'.2⟩)
    fun _ _ he => he)
  rw [List.count_append, List.count_eq_zero.mpr h'.1]
  rfl

/-- **A send reports its end**, once and without a panic, if and only if the
receiver answered with ids that were offered. No send goes on for ever. -/
theorem sendEnded_iff (display : Display) («alias» : String) (offer : Offer) (info : RegisterDtoV2)
    (dial : Option Dial) :
    Program.Terminates sendSpec (runSend display «alias» offer.files offer.paths info dial)
      .start ∧
    ∀ result w, Program.Reaches sendSpec
      (runSend display «alias» offer.files offer.paths info dial) .start
      (Program.ofExcept result) w →
      ((result = .ok () ∧ w.events.count .sendEnded = 1) ↔ Known offer.files w.response) := by
  refine ⟨Program.terminates _ _, fun result w hreaches => ?_⟩
  have hend := Program.wp_reaches (wp_runSend ⟨List.not_mem_nil, rfl⟩) hreaches
  cases result with
  | ok _ =>
      obtain ⟨hcount, hknown⟩ := Program.wp_ret.mp hend
      exact iff_of_true ⟨rfl, hcount⟩ hknown
  | error _ =>
      obtain ⟨-, hunknown⟩ := Program.wp_throw.mp hend
      exact iff_of_false (fun h => absurd h.1 nofun) hunknown

/-- One picked file. -/
def onePicked : Offer :=
  collectFiles [⟨"/home/me/notes.txt", "a", some ⟨"notes.txt", 5, "text/plain", none⟩⟩]

def phone : RegisterDtoV2 where
  «alias» := "Phone"
  version := "2.1"
  deviceModel := none
  deviceType := none
  fingerprint := "F"
  port := 53317
  protocol := .http
  download := false

/-- A receiver that accepts a file nobody offered. -/
def strangeResponse : PrepareUploadResponseDtoV2 := ⟨"s", .ofList [("b", "token")]⟩

/-- The task panics and `SendEnded` is missing. -/
theorem unknown_id_panics : ∃ w, Program.Reaches sendSpec
    (runSend ⟨fun _ => "", fun _ => ""⟩ "Phone" onePicked.files onePicked.paths phone
      (some ⟨.http, "10.0.0.2", 53317, none⟩)) .start (.throw .panic) w ∧
    w.response = some strangeResponse ∧ w.events = [.sendSessionStarted "s" 0] := by
  refine ⟨⟨[.sendSessionStarted "s" 0], some strangeResponse⟩, ?_, rfl, rfl⟩
  refine Program.Reaches.head (a := .ok (.ok ())) ⟨⟨_, rfl⟩, rfl⟩ ?_
  refine Program.Reaches.head (a := .ok (.ok ⟨200, some strangeResponse⟩)) ⟨_, rfl, rfl⟩ ?_
  refine Program.Reaches.head (a := .ok ()) ⟨rfl, rfl⟩ ?_
  exact .refl

end Ends

end SendTask

end FireBoxTransfer

import FireBoxTransfer.Framework.AssocMap
import FireBoxTransfer.Framework.Runs
import FireBoxTransfer.WebRTC.Messages

/-!
# Sending and receiving the files

The sender writes a header, the content in chunks, and a delimiter behind the last file.
The receiver hands every file to the application when its header comes, forwards the
chunks, and at the next text message waits for the application's result, which it sends
back as the response for the file that has just ended.
-/

namespace FireBoxTransfer.WebRTC

open Json Runs

/-! ## §1  The sender -/

structure FileDto where
  id : String
  size : ℕ
deriving DecidableEq

structure RTCFileError where
  fileId : String
  error : String
deriving DecidableEq

/-- A file and what its application writes into `binary_tx`. -/
structure RTCFile where
  fileId : String
  binary : List Bytes
deriving DecidableEq

/-- What both sides have agreed on: the offered files and the tokens of the selected
ones. -/
structure Selection where
  fileList : List FileDto
  fileTokens : AssocMap String String
  headerJson : Serde RTCSendFileHeaderRequest

namespace Selection

variable (X : Selection)

def header (message : RTCFile) (fileToken : String) : DataChannelMessage :=
  sendText (X.headerJson.write ⟨message.fileId, fileToken⟩)

/-- One round of the sender's loop. -/
def sendFile (message : RTCFile) : Except RTCFileError (List DataChannelMessage) :=
  match X.fileTokens.get? message.fileId with
  | some fileToken =>
      .ok (X.header message fileToken :: (processInChunks message.binary).map sendBinary)
  | none => .error ⟨message.fileId, "Failed to get file token"⟩

/-- What the sender puts on the channel. -/
def sendFiles (messages : List RTCFile) : List DataChannelMessage :=
  (messages.flatMap fun message =>
    match X.sendFile message with
    | .ok sent => sent
    | .error _ => []) ++ [delimiter]

end Selection

/-! ## §2  The receiver -/

/-- A file that is being received; its place among the files that were handed to the
application, and whether that still holds the receiving end. -/
structure RTCFileState where
  index : ℕ
  fileId : String
  size : ℕ
  received : ℕ
  receiverAlive : Bool
deriving DecidableEq

inductive LoopError where
  | headerUnparsable
  | channelClosed
  /-- "DataChannel is not opened". -/
  | notOpened
deriving DecidableEq

inductive Place where
  | receiving
  /-- `user_error_tx.recv()`, for the last file and before its text message is looked at. -/
  | awaiting (index : ℕ) (lastFileId : String) (msg : DataChannelMessage)
  | finished
  | failed (error : LoopError)
deriving DecidableEq

/-- The receive loop and its channels. Results carry the place of the file that the
application reports on. -/
structure Receiver where
  incoming : List DataChannelMessage
  place : Place
  fileState : Option RTCFileState
  /-- `receiving_tx`. -/
  handed : List String
  /-- `binary_tx` of each file. -/
  forwarded : List (ℕ × Bytes)
  /-- `error_tx`. -/
  errors : List RTCFileError
  /-- `user_error_tx`: what is waiting there, and all that the application has put there. -/
  results : List (ℕ × RTCSendFileResponse)
  reported : List (ℕ × RTCSendFileResponse)
  closed : Bool
  /-- The sender has not closed the data channel. -/
  channelOpen : Bool
  responses : List (ℕ × RTCSendFileResponse)
deriving DecidableEq

def Receiver.init (incoming : List DataChannelMessage) : Receiver where
  incoming := incoming
  place := .receiving
  fileState := none
  handed := []
  forwarded := []
  errors := []
  results := []
  reported := []
  closed := false
  channelOpen := true
  responses := []

/-! ## §3  One message -/

/-- The error of a response, by the result of the application. -/
def RTCSendFileResponse.failure (result : RTCSendFileResponse) : Option String :=
  if result.success then none else some (result.error.getD "Unknown error")

/-- The response for the last file. -/
def fileResponse (lastFileId : String) (error : Option String) : RTCSendFileResponse :=
  ⟨lastFileId, error.isNone, error⟩

namespace Receiver

def error (r : Receiver) (fileId error : String) : Receiver :=
  { r with place := .receiving, errors := r.errors ++ [⟨fileId, error⟩] }

/-- A text message is read as the header of the next file. -/
def receiveHeader (X : Selection) (r : Receiver) (msg : DataChannelMessage) : Receiver :=
  match X.headerJson.read msg.data with
  | none => { r with place := .failed .headerUnparsable }
  | some header =>
      match X.fileTokens.get? header.id with
      | some entry =>
          if header.token ≠ entry then r.error header.id "Invalid token" else
          match X.fileList.find? (·.id = header.id) with
          | some file =>
              { r with
                place := .receiving
                fileState := some ⟨r.handed.length, header.id, file.size, 0, true⟩
                handed := r.handed ++ [header.id] }
          | none => r.error header.id "Expected size to be available"
      | none => r.error header.id "File not found"

def oversizeError (size received : ℕ) : String :=
  "Received more bytes than expected " ++ s!"(expected {size}, got {received})"

def receiveBinary (r : Receiver) (msg : DataChannelMessage) : Receiver :=
  match r.fileState with
  | some state =>
      let received := state.received + msg.data.length
      if received > state.size then
        { r.error state.fileId (oversizeError state.size received) with fileState := none }
      else if state.receiverAlive then
        { r with
          fileState := some { state with received := received }
          forwarded := r.forwarded ++ [(state.index, msg.data)] }
      else { r with place := .failed .channelClosed }
  | none => r.error "unknown" "Received binary data without a header"

def receiveMessage (X : Selection) (r : Receiver) (msg : DataChannelMessage) : Receiver :=
  if msg.isString then
    match r.fileState with
    | some state => { r with fileState := none, place := .awaiting state.index state.fileId msg }
    | none => r.receiveHeader X msg
  else r.receiveBinary msg

/-- The response for the last file, if it can still be sent, and then its text message. -/
def respond (X : Selection) (r : Receiver) (index : ℕ) (lastFileId : String)
    (msg : DataChannelMessage) (error : Option String) : Receiver :=
  if r.channelOpen then
    let r := { r with responses := r.responses ++ [(index, fileResponse lastFileId error)] }
    if isDelimiter msg then { r with place := .finished } else r.receiveHeader X msg
  else { r with place := .failed .notOpened }

end Receiver

/-! ## §4  One step -/

inductive Label where
  | loop
  /-- The application reports on the file at a place. -/
  | report (index : ℕ) (result : RTCSendFileResponse)
  | dropReceiver
  /-- The application will not report any more. -/
  | close
  /-- The sender closes the data channel, as it does after one response. What it has sent
  before is still received. -/
  | hangUp
deriving DecidableEq

namespace Receiver

/-- `mpsc::channel::<RTCSendFileResponse>(1)`. -/
def fileStatusCapacity : ℕ := 1

def loop (X : Selection) (r : Receiver) : Option Receiver :=
  match r.place with
  | .receiving =>
      match r.incoming with
      | msg :: incoming => some ({ r with incoming := incoming }.receiveMessage X msg)
      | [] => none
  | .awaiting index lastFileId msg =>
      match r.results with
      | (_, result) :: results =>
          some ({ r with results := results }.respond X index lastFileId msg result.failure)
      | [] =>
          if r.closed then
            some (r.respond X index lastFileId msg (some "Failed to receive file result"))
          else none
  | .finished | .failed _ => none

def step (X : Selection) (r : Receiver) : Label → Option Receiver
  | .loop => r.loop X
  | .report index result =>
      if index < r.handed.length ∧ index ∉ r.reported.map Prod.fst ∧
          r.results.length < fileStatusCapacity ∧ r.closed = false then
        some { r with
          results := r.results ++ [(index, result)]
          reported := r.reported ++ [(index, result)] }
      else none
  | .dropReceiver =>
      r.fileState.map fun state =>
        { r with fileState := some { state with receiverAlive := false } }
  | .close => some { r with closed := true }
  | .hangUp => some { r with channelOpen := false }

end Receiver

/-! ## §5  The files of the sender -/

namespace Selection

variable (X : Selection)

def accepted (f : RTCFile) : Bool := (X.fileTokens.get? f.fileId).isSome

/-- The size of a file that has a token, as the receiver knows it. -/
def declared (f : RTCFile) : Option ℕ :=
  (X.fileTokens.get? f.fileId).bind fun _ =>
    (X.fileList.find? (·.id = f.fileId)).map FileDto.size

/-- The content is not longer than declared. -/
def fits (f : RTCFile) : Bool := (X.declared f).any fun size => f.binary.flatten.length ≤ size

/-- The content is longer than declared. -/
def exceeds (f : RTCFile) : Bool := (X.declared f).any fun size => size < f.binary.flatten.length

variable {X}

/-- Files without a token are not sent. -/
theorem sendFiles_filter (messages : List RTCFile) :
    X.sendFiles (messages.filter X.accepted) = X.sendFiles messages := by
  induction messages with
  | nil => rfl
  | cons f messages ih =>
      unfold sendFiles at *
      by_cases hf : X.accepted f = true
      · rw [List.filter_cons_of_pos hf, List.flatMap_cons, List.flatMap_cons, List.append_assoc,
          List.append_assoc, ih]
      · have hnone : X.fileTokens.get? f.fileId = none := by
          simpa [accepted] using hf
        rw [List.filter_cons_of_neg hf, ih, List.flatMap_cons, sendFile, hnone]
        rfl

theorem sendFiles_cons {f : RTCFile} {fileToken : String} {rest : List RTCFile}
    (hf : X.fileTokens.get? f.fileId = some fileToken) :
    X.sendFiles (f :: rest) =
      X.header f fileToken :: ((processInChunks f.binary).map sendBinary ++ X.sendFiles rest) := by
  unfold sendFiles
  rw [List.flatMap_cons, sendFile, hf, List.append_assoc]
  rfl

end Selection

/-! ## §6  Where a receiver is -/

namespace Receiver

/-- What the loop has not looked at yet. -/
def pending (r : Receiver) : List DataChannelMessage :=
  match r.place with
  | .awaiting _ _ msg => msg :: r.incoming
  | _ => r.incoming

/-- The chunks of the current file that are still to come, and the files behind it. -/
structure At (X : Selection) (r : Receiver) (chunks : List Bytes) (rest : List RTCFile) :
    Prop where
  accepted : ∀ f ∈ rest, X.accepted f = true
  pending : r.pending = chunks.map sendBinary ++ X.sendFiles rest
  place : (r.place = .receiving ∧ ∀ state ∈ r.fileState, state.received ≤ state.size) ∨
    ((∃ index lastFileId msg, r.place = .awaiting index lastFileId msg) ∧ chunks = [] ∧
      r.fileState = none)

theorem At.init (X : Selection) (messages : List RTCFile) :
    (init (X.sendFiles messages)).At X [] (messages.filter X.accepted) where
  accepted _ hf := (List.mem_filter.mp hf).2
  pending := (Selection.sendFiles_filter messages).symm
  place := .inl ⟨rfl, nofun⟩

variable {X : Selection} {r r' : Receiver} {chunks : List Bytes} {rest : List RTCFile}

theorem At.incoming_eq {msg : DataChannelMessage} {incoming : List DataChannelMessage}
    (hat : r.At X chunks rest) (hplace : r.place = .receiving)
    (hincoming : r.incoming = msg :: incoming) :
    msg :: incoming = chunks.map sendBinary ++ X.sendFiles rest := by
  rw [← hincoming, ← hat.pending, Receiver.pending, hplace]

/-- After a chunk. -/
theorem At.chunk {chunk : Bytes} {incoming : List DataChannelMessage}
    (hat : r.At X (chunk :: chunks) rest) (hplace : r.place = .receiving)
    (hincoming : r.incoming = sendBinary chunk :: incoming) (hplace' : r'.place = .receiving)
    (hincoming' : r'.incoming = incoming)
    (hstate : ∀ state ∈ r'.fileState, state.received ≤ state.size) : r'.At X chunks rest where
  accepted := hat.accepted
  pending := by
    rw [Receiver.pending, hplace', hincoming']
    exact (List.cons.inj (hat.incoming_eq hplace hincoming)).2
  place := .inl ⟨hplace', hstate⟩

theorem At.within (hat : r.At X chunks rest) (hplace : r.place = .receiving) :
    ∀ state ∈ r.fileState, state.received ≤ state.size := by
  obtain ⟨-, hstate⟩ | ⟨⟨index, lastFileId, msg, hawaiting⟩, -⟩ := hat.place
  · exact hstate
  · rw [hplace] at hawaiting
    cases hawaiting

theorem At.idle {index : ℕ} {lastFileId : String} {msg : DataChannelMessage}
    (hat : r.At X chunks rest) (hplace : r.place = .awaiting index lastFileId msg) :
    r.fileState = none := by
  obtain ⟨hreceiving, -⟩ | ⟨-, -, hstate⟩ := hat.place
  · rw [hplace] at hreceiving
    cases hreceiving
  · exact hstate

/-- The application lets go of the file that is open. -/
theorem At.dropped {state : RTCFileState} (hat : r.At X chunks rest)
    (hstate : r.fileState = some state) :
    At X { r with fileState := some { state with receiverAlive := false } } chunks rest := by
  obtain ⟨hplace, hwithin⟩ | ⟨-, -, hidle⟩ := hat.place
  · refine ⟨hat.accepted, hat.pending, .inl ⟨hplace, ?_⟩⟩
    rintro _ ⟨⟩
    exact hwithin state hstate
  · rw [hidle] at hstate
    cases hstate

/-! ## §7  The cases of the loop -/

/-- What a text message does that is not the end of a file: the delimiter is not a header,
and every header of an honest sender is known. -/
inductive Headed (X : Selection) (r : Receiver) : List RTCFile → Receiver → Prop
  | unparsable (incoming : r.incoming = []) :
      Headed X r [] { r with place := .failed .headerUnparsable }
  | unsized {f rest} (declared : X.declared f = none)
      (incoming : r.incoming = (processInChunks f.binary).map sendBinary ++ X.sendFiles rest) :
      Headed X r (f :: rest) (r.error f.fileId "Expected size to be available")
  | opened {f rest size} (declared : X.declared f = some size)
      (incoming : r.incoming = (processInChunks f.binary).map sendBinary ++ X.sendFiles rest) :
      Headed X r (f :: rest)
        { r with
          place := .receiving
          fileState := some ⟨r.handed.length, f.fileId, size, 0, true⟩
          handed := r.handed ++ [f.fileId] }

theorem headed {msg : DataChannelMessage} (haccepted : ∀ f ∈ rest, X.accepted f = true)
    (hpending : msg :: r.incoming = X.sendFiles rest) :
    Headed X r rest (r.receiveHeader X msg) ∧ isDelimiter msg = rest.isEmpty ∧
      msg.isString = true := by
  cases rest with
  | nil =>
      obtain ⟨rfl, hincoming⟩ := List.cons.inj hpending
      have hread : X.headerJson.read delimiter.data = none := X.headerJson.read_short _ (by decide)
      refine ⟨?_, rfl, rfl⟩
      rw [receiveHeader, hread]
      exact .unparsable hincoming
  | cons f rest =>
      obtain ⟨fileToken, htoken⟩ := Option.isSome_iff_exists.mp (haccepted f List.mem_cons_self)
      rw [Selection.sendFiles_cons htoken] at hpending
      obtain ⟨rfl, hincoming⟩ := List.cons.inj hpending
      refine ⟨?_, isDelimiter_write _ _, rfl⟩
      have hread : X.headerJson.read (X.header f fileToken).data = some ⟨f.fileId, fileToken⟩ :=
        X.headerJson.read_write _
      unfold receiveHeader
      rw [hread]
      simp only [htoken, ne_eq, not_true_eq_false, if_false]
      have hdeclared : X.declared f =
          (X.fileList.find? (·.id = f.fileId)).map FileDto.size := by
        rw [Selection.declared, htoken, Option.bind_some]
      cases hfind : X.fileList.find? (·.id = f.fileId) with
      | none => exact .unsized (by rw [hdeclared, hfind, Option.map_none]) hincoming
      | some file => exact .opened (by rw [hdeclared, hfind, Option.map_some]) hincoming

/-- After the header of a file. -/
theorem Headed.next {f : RTCFile} (hheaded : Headed X r (f :: rest) r')
    (haccepted : ∀ g ∈ f :: rest, X.accepted g = true) (hstate : r.fileState = none) :
    r'.At X (processInChunks f.binary) rest ∧ r'.place = .receiving ∧
      r'.fileState.map RTCFileState.size = X.declared f ∧
      ∀ state ∈ r'.fileState, state.received = 0 := by
  have hrest := (List.forall_mem_cons.mp haccepted).2
  cases hheaded with
  | unsized hdeclared hincoming =>
      have hidle : (r.error f.fileId "Expected size to be available").fileState = none := hstate
      refine ⟨⟨hrest, hincoming, .inl ⟨rfl, ?_⟩⟩, rfl, by rw [hidle, hdeclared]; rfl, ?_⟩
      all_goals
        rw [hidle]
        exact nofun
  | opened hdeclared hincoming =>
      refine ⟨⟨hrest, hincoming, .inl ⟨rfl, ?_⟩⟩, rfl, hdeclared.symm, ?_⟩
      · rintro _ ⟨⟩
        exact Nat.zero_le _
      · rintro _ ⟨⟩
        rfl

/-- The result that the loop takes for the last file: the next one that is reported, or
none any more. -/
inductive Taken (r : Receiver) : Option String → Receiver → Prop
  | result {index result results} (hresults : r.results = (index, result) :: results) :
      Taken r result.failure { r with results := results }
  | none (hresults : r.results = []) (closed : r.closed = true) :
      Taken r (some "Failed to receive file result") r

/-- Nothing but the results changes. -/
theorem Taken.eq_results {error : Option String} {r₀ : Receiver} (htaken : Taken r error r₀) :
    r₀ = { r with results := r₀.results } := by
  cases htaken <;> rfl

/-- What one step of the loop finds and leaves behind. -/
inductive LoopCase (X : Selection) (r : Receiver) : List Bytes → List RTCFile → Receiver → Prop
  | unheadered {chunk chunks rest incoming} (place : r.place = .receiving)
      (fileState : r.fileState = none) (hincoming : r.incoming = sendBinary chunk :: incoming) :
      LoopCase X r (chunk :: chunks) rest
        ({ r with incoming := incoming }.error "unknown" "Received binary data without a header")
  | exceeded {chunk chunks rest incoming state} (place : r.place = .receiving)
      (fileState : r.fileState = some state)
      (hincoming : r.incoming = sendBinary chunk :: incoming)
      (size : state.size < state.received + chunk.length) :
      LoopCase X r (chunk :: chunks) rest
        { { r with incoming := incoming }.error state.fileId
            (oversizeError state.size (state.received + chunk.length)) with fileState := none }
  | forwarded {chunk chunks rest incoming state} (place : r.place = .receiving)
      (fileState : r.fileState = some state)
      (hincoming : r.incoming = sendBinary chunk :: incoming)
      (size : state.received + chunk.length ≤ state.size) (alive : state.receiverAlive = true) :
      LoopCase X r (chunk :: chunks) rest
        { r with
          incoming := incoming
          fileState := some { state with received := state.received + chunk.length }
          forwarded := r.forwarded ++ [(state.index, chunk)] }
  | dropped {chunk chunks rest incoming state} (place : r.place = .receiving)
      (fileState : r.fileState = some state)
      (hincoming : r.incoming = sendBinary chunk :: incoming)
      (size : state.received + chunk.length ≤ state.size) (alive : state.receiverAlive = false) :
      LoopCase X r (chunk :: chunks) rest
        { r with incoming := incoming, place := .failed .channelClosed }
  | ended {rest incoming msg state} (place : r.place = .receiving)
      (fileState : r.fileState = some state) (hincoming : r.incoming = msg :: incoming) :
      LoopCase X r [] rest
        { r with
          incoming := incoming
          fileState := none
          place := .awaiting state.index state.fileId msg }
  | header {rest incoming msg r'} (place : r.place = .receiving) (fileState : r.fileState = none)
      (hincoming : r.incoming = msg :: incoming)
      (headed : Headed X { r with incoming := incoming } rest r') : LoopCase X r [] rest r'
  | last {index lastFileId msg error r₀} (place : r.place = .awaiting index lastFileId msg)
      (result : Taken r error r₀) (hincoming : r.incoming = []) :
      LoopCase X r [] []
        { r₀ with
          responses := r.responses ++ [(index, fileResponse lastFileId error)]
          place := .finished }
  | refused {rest index lastFileId msg error r₀} (place : r.place = .awaiting index lastFileId msg)
      (result : Taken r error r₀) (shut : r.channelOpen = false) :
      LoopCase X r [] rest { r₀ with place := .failed .notOpened }
  | next {f rest index lastFileId msg error r₀ r'}
      (place : r.place = .awaiting index lastFileId msg) (result : Taken r error r₀)
      (headed : Headed X
        { r₀ with responses := r.responses ++ [(index, fileResponse lastFileId error)] }
        (f :: rest) r') : LoopCase X r [] (f :: rest) r'

theorem respond_cases {index : ℕ} {lastFileId : String} {msg : DataChannelMessage}
    {error : Option String} {r₀ : Receiver} (hplace : r.place = .awaiting index lastFileId msg)
    (hat : r.At X [] rest) (htaken : Taken r error r₀) (hincoming : r₀.incoming = r.incoming)
    (hresponses : r₀.responses = r.responses) (hopen : r₀.channelOpen = r.channelOpen) :
    LoopCase X r [] rest (r₀.respond X index lastFileId msg error) := by
  have hpending : msg :: r.incoming = X.sendFiles rest := by
    have h := hat.pending
    rw [pending, hplace] at h
    exact h
  obtain ⟨hheaded, hdelimiter, -⟩ := headed (r := { r₀ with
    responses := r.responses ++ [(index, fileResponse lastFileId error)] }) hat.accepted
    (by rw [← hpending, ← hincoming])
  unfold respond
  by_cases hshut : r₀.channelOpen = true
  · rw [if_pos hshut]
    simp only [hresponses, hdelimiter]
    cases rest with
    | nil =>
        have hlast : r.incoming = [] := (List.cons.inj hpending).2
        exact .last hplace htaken hlast
    | cons f rest => exact .next hplace htaken hheaded
  · rw [if_neg hshut]
    rw [hopen, Bool.not_eq_true] at hshut
    exact .refused hplace htaken hshut

theorem binary_cases {chunk : Bytes} {incoming : List DataChannelMessage}
    (hplace : r.place = .receiving) (hincoming : r.incoming = sendBinary chunk :: incoming) :
    LoopCase X r (chunk :: chunks) rest
      ({ r with incoming := incoming }.receiveBinary (sendBinary chunk)) := by
  obtain ⟨_, place, fileState, handed, forwarded, errors, results, reported, closed,
    channelOpen, responses⟩ := r
  obtain rfl : place = .receiving := hplace
  cases fileState with
  | none => exact .unheadered rfl rfl hincoming
  | some state =>
      simp only [receiveBinary, sendBinary, gt_iff_lt]
      split_ifs with hsize halive
      · exact .exceeded rfl rfl hincoming hsize
      · exact .forwarded rfl rfl hincoming (Nat.not_lt.mp hsize) halive
      · exact .dropped rfl rfl hincoming (Nat.not_lt.mp hsize) (Bool.eq_false_iff.mpr halive)

theorem text_cases {msg : DataChannelMessage} {incoming : List DataChannelMessage}
    (hplace : r.place = .receiving) (hincoming : r.incoming = msg :: incoming)
    (hheaded : Headed X { r with incoming := incoming } rest
      ({ r with incoming := incoming }.receiveHeader X msg)) (hstring : msg.isString = true) :
    LoopCase X r [] rest ({ r with incoming := incoming }.receiveMessage X msg) := by
  unfold receiveMessage
  rw [if_pos hstring]
  split
  · rename_i hstate
    exact .ended hplace hstate hincoming
  · rename_i hstate
    exact .header hplace hstate hincoming hheaded

theorem loop_receiving {msg : DataChannelMessage} {incoming : List DataChannelMessage}
    (hplace : r.place = .receiving) (hincoming : r.incoming = msg :: incoming) :
    r.loop X = some ({ r with incoming := incoming }.receiveMessage X msg) := by
  unfold loop
  split
  · simp only [hincoming]
  all_goals
    rename_i hother
    rw [hplace] at hother
    cases hother

theorem loop_result {index i : ℕ} {lastFileId : String} {msg : DataChannelMessage}
    {result : RTCSendFileResponse} {results : List (ℕ × RTCSendFileResponse)}
    (hplace : r.place = .awaiting index lastFileId msg)
    (hresults : r.results = (i, result) :: results) :
    r.loop X =
      some ({ r with results := results }.respond X index lastFileId msg result.failure) := by
  unfold loop
  split
  · rename_i hother
    rw [hplace] at hother
    cases hother
  · rename_i hother
    rw [hplace] at hother
    cases hother
    simp only [hresults]
  all_goals
    rename_i hother
    rw [hplace] at hother
    cases hother

theorem loop_closed {index : ℕ} {lastFileId : String} {msg : DataChannelMessage}
    (hplace : r.place = .awaiting index lastFileId msg) (hresults : r.results = [])
    (hclosed : r.closed = true) :
    r.loop X =
      some (r.respond X index lastFileId msg (some "Failed to receive file result")) := by
  unfold loop
  split
  · rename_i hother
    rw [hplace] at hother
    cases hother
  · rename_i hother
    rw [hplace] at hother
    cases hother
    simp only [hresults, if_pos hclosed]
  all_goals
    rename_i hother
    rw [hplace] at hother
    cases hother

/-- **The cases of the loop.** -/
theorem loop_cases (hat : r.At X chunks rest) (hloop : r.loop X = some r') :
    LoopCase X r chunks rest r' := by
  unfold loop at hloop
  split at hloop
  · rename_i hplace
    have hpending := hat.pending
    rw [pending, hplace] at hpending
    simp only at hpending
    split at hloop
    · rename_i msg incoming hincoming
      cases hloop
      rw [hincoming] at hpending
      cases chunks with
      | cons chunk chunks =>
          obtain ⟨rfl, -⟩ := List.cons.inj hpending
          exact binary_cases hplace hincoming
      | nil =>
          obtain ⟨hheaded, -, hstring⟩ :=
            headed (r := { r with incoming := incoming }) hat.accepted hpending
          exact text_cases hplace hincoming hheaded hstring
    · cases hloop
  · rename_i index lastFileId msg hplace
    obtain ⟨hreceiving, -⟩ | ⟨-, rfl, -⟩ := hat.place
    · rw [hplace] at hreceiving
      cases hreceiving
    · split at hloop
      · rename_i hresults
        cases hloop
        exact respond_cases hplace hat (.result hresults) rfl rfl rfl
      · rename_i hresults
        split_ifs at hloop with hclosed
        cases hloop
        exact respond_cases hplace hat (.none hresults hclosed) rfl rfl rfl
  · cases hloop
  · cases hloop

end Receiver

end FireBoxTransfer.WebRTC

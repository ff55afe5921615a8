import FireBoxTransfer.Framework.Json

/-!
# Messages on the data channel

Text messages carry a JSON object or the delimiter, binary messages the pieces of a
longer string or of a file. The pieces are cut to the size of a chunk.
-/

namespace FireBoxTransfer.WebRTC

open Json

/-! ## §1  Messages -/

structure DataChannelMessage where
  isString : Bool
  data : Bytes
deriving DecidableEq

def sendText (data : Bytes) : DataChannelMessage := ⟨true, data⟩

def sendBinary (chunk : Bytes) : DataChannelMessage := ⟨false, chunk⟩

/-- What `send_delimiter` sends: the text `0`. -/
def delimiter : DataChannelMessage := sendText [48]

def isDelimiter (msg : DataChannelMessage) : Bool := msg.isString && decide (msg.data.length ≤ 1)

theorem isDelimiter_write {α : Type*} (json : Serde α) (a : α) :
    isDelimiter (sendText (json.write a)) = false := by
  unfold isDelimiter sendText
  rw [Bool.true_and, decide_eq_false_iff_not]
  exact Nat.not_le.mpr (json.one_lt_length a)

/-! ## §2  Chunks -/

/-- `CHUNK_SIZE`: 16 KiB. -/
def chunkSize : ℕ := 16 * 1024

/-- `while buffer.len() >= CHUNK_SIZE`: the chunks, and what stays in the buffer. -/
def splitChunks : ℕ → Bytes → List Bytes × Bytes
  | fuel + 1, buffer =>
      if buffer.length ≥ chunkSize then
        let r := splitChunks fuel (buffer.drop chunkSize)
        (buffer.take chunkSize :: r.1, r.2)
      else ([], buffer)
  | 0, buffer => ([], buffer)

/-- The loop of `process_in_chunks` over what is received. -/
def processBuffered (buffer : Bytes) : List Bytes → List Bytes
  | data :: rx =>
      let r := splitChunks (buffer ++ data).length (buffer ++ data)
      r.1 ++ processBuffered r.2 rx
  | [] => if buffer.isEmpty then [] else [buffer]

def processInChunks (rx : List Bytes) : List Bytes := processBuffered [] rx

theorem flatten_splitChunks (fuel : ℕ) (buffer : Bytes) :
    (splitChunks fuel buffer).1.flatten ++ (splitChunks fuel buffer).2 = buffer := by
  induction fuel generalizing buffer with
  | zero => rfl
  | succ fuel ih =>
      unfold splitChunks
      split_ifs with hfull
      · simp only
        rw [List.flatten_cons, List.append_assoc, ih, List.take_append_drop]
      · rfl

theorem flatten_processBuffered (buffer : Bytes) (rx : List Bytes) :
    (processBuffered buffer rx).flatten = buffer ++ rx.flatten := by
  induction rx generalizing buffer with
  | nil =>
      unfold processBuffered
      split_ifs with hempty
      · rw [List.isEmpty_iff.mp hempty]
        rfl
      · simp
  | cons data rx ih =>
      rw [processBuffered, List.flatten_append, ih, ← List.append_assoc, flatten_splitChunks,
        List.flatten_cons, List.append_assoc]

/-- The chunks are the content, piece by piece. -/
theorem flatten_processInChunks (rx : List Bytes) : (processInChunks rx).flatten = rx.flatten :=
  flatten_processBuffered [] rx

/-! ## §3  Strings in chunks -/

/-- `send_string_in_chunks` and the delimiter behind it. -/
def stringInChunks (string : Bytes) : List DataChannelMessage :=
  (processInChunks [string]).map sendBinary ++ [delimiter]

/-! ## §4  What is exchanged -/

structure RTCPinMessage where
  pin : String
deriving DecidableEq

/-- `RTCPinReceivingResponse` and `RTCPinSendingResponse`, by what an `Ok` carries. -/
inductive PinResponse (T : Type*) where
  | ok (result : T)
  | pinRequired
  | tooManyAttempts
deriving DecidableEq

abbrev RTCPinReceivingResponse := PinResponse Unit

structure RTCSendFileHeaderRequest where
  id : String
  token : String
deriving DecidableEq

structure RTCSendFileResponse where
  id : String
  success : Bool
  error : Option String
deriving DecidableEq

theorem one_lt_pinText : 1 < "\x7b\"pin\":".toUTF8.data.toList.length := by decide +kernel

def pinMessageJson : Serde RTCPinMessage :=
  .ofFields "\x7b\"pin\":" [] one_lt_pinText (fun m => [m.pin])
    (fun values => match values with
      | [pin] => some ⟨pin⟩
      | _ => none)
    (fun _ => rfl) (fun _ => rfl)

def pinReceivingResponseJson : Serde RTCPinReceivingResponse :=
  .ofFields "\x7b\"status\":" [] (by decide +kernel)
    (fun response => match response with
      | .ok () => ["OK"]
      | .pinRequired => ["PIN_REQUIRED"]
      | .tooManyAttempts => ["TOO_MANY_ATTEMPTS"])
    (fun values =>
      if values = ["OK"] then some (.ok ())
      else if values = ["PIN_REQUIRED"] then some .pinRequired
      else if values = ["TOO_MANY_ATTEMPTS"] then some .tooManyAttempts
      else none)
    (fun response => by cases response <;> rfl)
    (fun response => by cases response <;> rfl)

def sendFileHeaderJson : Serde RTCSendFileHeaderRequest :=
  .ofFields "\x7b\"id\":" [",\"token\":"] (by decide +kernel) (fun h => [h.id, h.token])
    (fun values => match values with
      | [id, token] => some ⟨id, token⟩
      | _ => none)
    (fun _ => rfl) (fun _ => rfl)

end FireBoxTransfer.WebRTC

import FireBoxTransfer.Core.Save

/-!
# An upload from file to file

A task of the sender reads the file into a channel, the client takes the chunks from there into
the body of a request, and the connection cuts them anew; the server saves what arrives. The
file may end early or be refused, the connection may be lost, and either side may give up.
-/

namespace FireBoxTransfer

open Runs

namespace Transmission

/-! ## §1  The sender -/

/-- Where the content of a file comes from. -/
inductive FileContent where
  /-- The application adds it in pieces. -/
  | stream
  | path
  | fd
deriving DecidableEq

def fileChannelCapacity : ℕ := 16

def FileContent.capacity : FileContent → ℕ
  | .stream => 1
  | .path | .fd => fileChannelCapacity

/-- `read_file_into_sender`, or the application. -/
inductive Reader where
  | opening
  | reading
  /-- Room in the channel. -/
  | sending (chunk : Bytes)
  | ended
deriving DecidableEq

def FileContent.reader : FileContent → Reader
  | .path => .opening
  | .stream | .fd => .reading

def Reader.inHand : Reader → Bytes
  | .sending chunk => chunk
  | .opening | .reading | .ended => []

inductive UploadError where
  | cancelled
  | connection
  | certificate
  | status
deriving DecidableEq

/-! ## §2  The whole -/

/-- What is sent, and as what it was offered and accepted. -/
structure Setup where
  content : FileContent
  source : Bytes
  target : SaveTarget
  fileSize : ℕ
  expectedSha256 : Option String
  initial : Option Bytes

/-- The request as the server would have it with a body of these frames. -/
def Setup.request (u : Setup) (body : List Frame) : SaveRequest :=
  ⟨u.target, u.fileSize, u.expectedSha256, body, u.initial⟩

/-- `provided` is all that was read, and `frames` what has reached the handler. The handler of
`save` knows no frame beyond these. -/
structure State where
  reader : Reader
  provided : Bytes
  chunks : List Bytes
  progress : List ℕ
  /-- The end of the body was sent. -/
  bodySent : Bool
  lost : Bool
  result : Option (Except UploadError Unit)
  wire : Bytes
  frames : List Frame
  /-- The end of the body has reached the handler. -/
  bodyRead : Bool
  save : SaveState
deriving DecidableEq

def Setup.init (u : Setup) : State where
  reader := u.content.reader
  provided := []
  chunks := []
  progress := []
  bodySent := false
  lost := false
  result := none
  wire := []
  frames := []
  bodyRead := false
  save := (u.request []).init

/-- What the progress was told last. -/
def State.sent (t : State) : ℕ := t.progress.getLast?.getD 0

/-! ## §3  One step -/

inductive Event where
  | opened (ok : Bool)
  /-- At most `n` bytes are read. -/
  | read (n : ℕ)
  | readFailed
  | forward
  /-- The client takes a chunk. -/
  | pull
  | finish
  /-- At most `n` bytes arrive as one frame. -/
  | deliver (n : ℕ)
  | bodyEnded
  /-- The server finds the connection broken. -/
  | broken
  | save (act : UploadSaveAct)
  /-- The client has the answer, and verifies the certificate of the connection. -/
  | respond (verified : Bool)
  /-- The client finds the connection broken. -/
  | fail
  | cancel
  | lose
deriving DecidableEq

section Steps

variable (toHex : Bytes → String) (u : Setup)

def State.read (t : State) (n : ℕ) : Option State :=
  match t.reader with
  | .reading =>
      let rest := u.source.drop t.provided.length
      if rest = [] then some { t with reader := .ended }
      else if n = 0 then none
      else some { t with reader := .sending (rest.take n), provided := t.provided ++ rest.take n }
  | .opening | .sending _ | .ended => none

/-- The receiver of the channel is gone when the request is over. -/
def State.forward (t : State) : Option State :=
  match t.reader with
  | .sending chunk =>
      if t.result.isSome then some { t with reader := .ended }
      else if t.chunks.length < u.content.capacity then
        some { t with reader := .reading, chunks := t.chunks ++ [chunk] }
      else none
  | .opening | .reading | .ended => none

def State.pull (t : State) : Option State :=
  if t.result.isSome ∨ t.bodySent = true then none
  else
    match t.chunks with
    | [] => none
    | chunk :: chunks => some { t with
        chunks := chunks
        progress := t.progress ++ [t.sent + chunk.length]
        wire := t.wire ++ chunk }

def State.finish (t : State) : Option State :=
  if t.result.isSome ∨ t.bodySent = true ∨ t.chunks ≠ [] ∨ t.reader ≠ .ended then none
  else some { t with bodySent := true }

/-- A frame reaches the handler, which waits for one. -/
def State.arrive (t : State) (frame : Frame) : Option State :=
  if t.save.handler = .forwarding [] then
    (handlerStep toHex (u.request []) { t.save with handler := .forwarding [frame] }).map
      fun save => { t with frames := t.frames ++ [frame], save := save }
  else none

def State.deliver (t : State) (n : ℕ) : Option State :=
  if n = 0 ∨ t.wire = [] then none
  else { t with wire := t.wire.drop n }.arrive toHex u (.data (t.wire.take n))

def State.endBody (t : State) : Option State :=
  if t.save.handler = .forwarding [] ∧ t.wire = [] ∧ t.bodySent = true then
    (handlerStep toHex (u.request []) t.save).map
      fun save => { t with bodyRead := true, save := save }
  else none

/-- What the server does by itself, apart from waiting for a frame. -/
def State.serve (t : State) (act : UploadSaveAct) : Option State :=
  if act = .handler ∧ t.save.handler = .forwarding [] then none
  else (uploadSaveStep toHex (u.request []) t.save act).map fun save => { t with save := save }

def State.respond (t : State) (verified : Bool) : Option State :=
  match t.result, t.save.handler with
  | none, .done result => some { t with
      result := some (if !verified then .error .certificate
        else if result = .success then .ok () else .error .status) }
  | _, _ => none

def step (t : State) : Event → Option State
  | .opened ok =>
      if t.reader = .opening then some { t with reader := if ok then .reading else .ended }
      else none
  | .read n => t.read u n
  | .readFailed => if t.reader = .reading then some { t with reader := .ended } else none
  | .forward => t.forward u
  | .pull => t.pull
  | .finish => t.finish
  | .deliver n => t.deliver toHex u n
  | .bodyEnded => t.endBody toHex u
  | .broken => if t.lost = true ∨ t.result.isSome then t.arrive toHex u .error else none
  | .save act => t.serve toHex u act
  | .respond verified => t.respond verified
  | .fail =>
      if t.result.isNone ∧ (t.lost = true ∨ t.save.handler = .dropped) then
        some { t with result := some (.error .connection) }
      else none
  | .cancel =>
      if t.result.isNone then some { t with result := some (.error .cancelled) } else none
  | .lose => if t.lost = true then none else some { t with lost := true }

end Steps

end Transmission

/-! ## §4  A body that arrives in pieces -/

section Pieces

variable {toHex : Bytes → String} {u : Transmission.Setup} {body b rest : List Frame}
  {s s' : SaveState}

def SaveHandler.before (rest : List Frame) : SaveHandler → SaveHandler
  | .forwarding frames => .forwarding (frames ++ rest)
  | .sending bytes frames => .sending bytes (frames ++ rest)
  | .awaiting streamError => .awaiting streamError
  | .done result => .done result
  | .dropped => .dropped

/-- The handler as it would be if it knew the frames that follow. -/
def SaveState.before (s : SaveState) (rest : List Frame) : SaveState :=
  { s with handler := s.handler.before rest }

/-- The frames it knows. -/
def SaveHandler.known : SaveHandler → List Frame
  | .forwarding frames | .sending _ frames => frames
  | .awaiting _ | .done _ | .dropped => []

/-- It has read its body, or has stopped. -/
def SaveHandler.isOver : SaveHandler → Bool
  | .forwarding _ | .sending _ _ => false
  | .awaiting _ | .done _ | .dropped => true

theorem SaveHandler.before_nil (h : SaveHandler) : h.before [] = h := by
  cases h with
  | forwarding frames => exact congrArg _ (List.append_nil _)
  | sending bytes frames => exact congrArg _ (List.append_nil _)
  | awaiting | done | dropped => rfl

theorem SaveState.before_nil (s : SaveState) : s.before [] = s := by
  unfold SaveState.before
  rw [SaveHandler.before_nil]

theorem openTarget_before (io : Io) :
    openTarget (u.request body) (s.before rest) io =
      (openTarget (u.request b) s io).before rest := by
  obtain ⟨content, source, target, fileSize, expectedSha256, initial⟩ := u
  unfold openTarget
  cases target <;> cases io <;> rfl

theorem writerStep_before (io : Io) :
    writerStep (u.request body) (s.before rest) io =
      (writerStep (u.request b) s io).map fun s => s.before rest := by
  obtain ⟨handler, hashed, queue, txDropped, writer, written, file, ioErrors, app⟩ := s
  unfold writerStep
  cases writer with
  | opening => exact congrArg some (openTarget_before io)
  | receiving =>
      cases queue with
      | nil =>
          cases txDropped with
          | false => rfl
          | true =>
              cases io with
              | err n e => rfl
              | ok n =>
                  show some (flushFile _ _ _) = some (SaveState.before (flushFile _ _ _) rest)
                  unfold flushFile
                  show some (if written ≠ u.fileSize then _ else _) =
                    some (SaveState.before (if written ≠ u.fileSize then _ else _) rest)
                  split <;> rfl
      | cons chunk queue =>
          show (if written + chunk.length > u.fileSize then _ else _) =
            Option.map _ (if written + chunk.length > u.fileSize then _ else _)
          split
          · rfl
          · cases io <;> rfl
  | truncating => cases io <;> rfl
  | ended result => rfl

theorem handlerStep_before (hframe : s.handler ≠ .forwarding []) :
    handlerStep toHex (u.request body) (s.before rest) =
      (handlerStep toHex (u.request b) s).map fun s => s.before rest := by
  unfold handlerStep SaveState.before
  cases hhandler : s.handler with
  | forwarding frames =>
      cases frames with
      | nil => exact absurd hhandler hframe
      | cons frame frames =>
          cases frame with
          | trailers | error => rfl
          | data bytes =>
              show (if bytes = [] then _ else _) = Option.map _ (if bytes = [] then _ else _)
              split <;> rfl
  | sending bytes frames =>
      show (if s.rxClosed then _ else if s.queue.length < uploadChannelCapacity then _ else _) =
        Option.map _ (if s.rxClosed then _ else if s.queue.length < uploadChannelCapacity then _
          else _)
      split
      · rfl
      · split <;> rfl
  | awaiting streamError =>
      dsimp only [SaveHandler.before]
      cases s.writer <;> rfl
  | done result => rfl
  | dropped => rfl

theorem uploadSaveStep_before {act : UploadSaveAct}
    (hframe : act = .handler → s.handler ≠ .forwarding []) :
    uploadSaveStep toHex (u.request body) (s.before rest) act =
      (uploadSaveStep toHex (u.request b) s act).map fun s => s.before rest := by
  cases act with
  | handler => exact handlerStep_before (hframe rfl)
  | writer io => exact writerStep_before io
  | drop =>
      unfold uploadSaveStep SaveState.before
      cases s.handler <;> rfl

/-- A step of the handler meets no error of the file, and it is not the last. -/
theorem handlerStep_errors {s s' : SaveState} {body : List Frame}
    (hstep : handlerStep toHex (u.request body) s = some s') :
    s'.ioErrors = s.ioErrors ∧ s'.handler ≠ .dropped ∧ ∀ result, s.handler ≠ .done result := by
  unfold handlerStep at hstep
  cases hhandler : s.handler with
  | done | dropped =>
      rw [hhandler] at hstep
      cases hstep
  | awaiting streamError =>
      rw [hhandler] at hstep
      dsimp only at hstep
      split at hstep
      · obtain rfl := Option.some.inj hstep
        exact ⟨rfl, fun heq => (by cases heq), fun result heq => by cases heq⟩
      · cases hstep
  | sending bytes frames =>
      rw [hhandler] at hstep
      dsimp only at hstep
      split_ifs at hstep <;>
        (obtain rfl := Option.some.inj hstep
         exact ⟨rfl, fun heq => (by cases heq), fun result heq => by cases heq⟩)
  | forwarding frames =>
      rw [hhandler] at hstep
      cases frames with
      | nil =>
          obtain rfl := Option.some.inj hstep
          exact ⟨rfl, fun heq => (by cases heq), fun result heq => by cases heq⟩
      | cons frame frames =>
          cases frame with
          | trailers | error =>
              obtain rfl := Option.some.inj hstep
              exact ⟨rfl, fun heq => (by cases heq), fun result heq => by cases heq⟩
          | data bytes =>
              dsimp only at hstep
              split_ifs at hstep <;>
                (obtain rfl := Option.some.inj hstep
                 exact ⟨rfl, fun heq => (by cases heq), fun result heq => by cases heq⟩)

/-- A step of a handler that knows no frame, and does not wait for one. -/
theorem uploadSaveStep_handler {act : UploadSaveAct}
    (hstep : uploadSaveStep toHex (u.request body) s act = some s') (hknown : s.handler.known = [])
    (hframe : act = .handler → s.handler ≠ .forwarding [])
    (hclosed : s.handler = .dropped → s.txDropped = true) :
    s'.handler.known = [] ∧ (s.handler.isOver = true → s'.handler.isOver = true) ∧
      (∀ result, s.handler = .done result → s'.handler = .done result) ∧
      (s'.handler = .dropped → s'.txDropped = true) := by
  cases act with
  | writer io =>
      rw [(writerStep_frame hstep).handler, (writerStep_frame hstep).txDropped]
      exact ⟨hknown, id, fun _ => id, hclosed⟩
  | drop =>
      unfold uploadSaveStep at hstep
      cases hhandler : s.handler with
      | done result | dropped =>
          rw [hhandler] at hstep
          cases hstep
      | forwarding | sending | awaiting =>
          rw [hhandler] at hstep
          obtain rfl := Option.some.inj hstep
          exact ⟨rfl, fun _ => rfl, fun result hdone => (by cases hdone), fun _ => rfl⟩
  | handler =>
      change handlerStep toHex (u.request body) s = some s' at hstep
      have hend : s'.handler = .dropped → s'.txDropped = true :=
        fun heq => absurd heq (handlerStep_errors hstep).2.1
      unfold handlerStep at hstep
      cases hhandler : s.handler with
      | forwarding frames =>
          rw [hhandler] at hknown
          obtain rfl : frames = [] := hknown
          exact absurd hhandler (hframe rfl)
      | sending bytes frames =>
          rw [hhandler] at hknown
          obtain rfl : frames = [] := hknown
          rw [hhandler] at hstep
          dsimp only at hstep
          split_ifs at hstep
          · obtain rfl := Option.some.inj hstep
            exact ⟨rfl, fun _ => rfl, fun result hdone => (by cases hdone), hend⟩
          · obtain rfl := Option.some.inj hstep
            exact ⟨rfl, fun hover => (by cases hover), fun result hdone => (by cases hdone), hend⟩
      | awaiting streamError =>
          rw [hhandler] at hstep
          dsimp only at hstep
          split at hstep
          · obtain rfl := Option.some.inj hstep
            exact ⟨rfl, fun _ => rfl, fun result hdone => (by cases hdone), hend⟩
          · cases hstep
      | done result | dropped =>
          rw [hhandler] at hstep
          cases hstep

/-- A frame that is read leaves none. -/
theorem handlerStep_frame_known {frame : Frame}
    (hstep : handlerStep toHex (u.request body) { s with handler := .forwarding [frame] } =
      some s') : s'.handler.known = [] := by
  unfold handlerStep at hstep
  cases frame with
  | trailers | error =>
      obtain rfl := Option.some.inj hstep
      rfl
  | data bytes =>
      dsimp only at hstep
      split_ifs at hstep <;> (obtain rfl := Option.some.inj hstep; rfl)

end Pieces

namespace Transmission

/-! ## §5  What is where -/

section Places

variable {toHex : Bytes → String} {u : Setup} {t t' : State} {n : ℕ}

/-- What was read and has not reached the handler. -/
def State.moving (t : State) : Bytes := t.wire ++ t.chunks.flatten ++ t.reader.inHand

/-- On the side of the sender nothing is lost, unless the request is over. -/
structure Sending (u : Setup) (t : State) : Prop where
  read : t.provided <+: u.source
  moving : ∃ dropped, t.provided = bodyBytes t.frames ++ t.moving ++ dropped ∧
    (t.result = none ∨ t.bodySent = true ∨ t.reader ≠ .ended → dropped = [])
  sent : t.bodySent = true → t.chunks = [] ∧ t.reader = .ended
  progress : t.sent = (bodyBytes t.frames ++ t.wire).length
  grows : t.progress.Pairwise (· ≤ ·) ∧ ∀ p ∈ t.progress, p ≤ t.sent

/-- The server does to the frames that came what it would do to them in one body, whatever
follows; nothing does once the body is read. -/
structure Serving (toHex : Bytes → String) (u : Setup) (t : State) : Prop where
  known : t.save.handler.known = []
  bodyRead : t.bodyRead = true →
    t.bodySent = true ∧ t.wire = [] ∧ t.save.handler.isOver = true
  saving : ∀ rest, (t.bodyRead = true → rest = []) →
    Saving toHex (u.request (t.frames ++ rest)) (t.save.before rest)
  closed : t.save.handler = .dropped → t.save.txDropped = true
  result : t.result = some (.ok ()) → t.save.handler = .done .success

theorem sending_init : Sending u u.init where
  read := List.nil_prefix
  moving := by
    refine ⟨[], ?_, fun _ => rfl⟩
    unfold State.moving Setup.init
    cases u.content <;> rfl
  sent hsent := by cases hsent
  progress := rfl
  grows := ⟨.nil, fun p hp => by cases hp⟩

theorem serving_init : Serving toHex u u.init where
  known := rfl
  bodyRead hread := by cases hread
  saving rest _ := by
    have hinit : Saving toHex (u.request rest) (u.request rest).init := saving_init
    exact hinit
  closed heq := by cases heq
  result hresult := by cases hresult

/-! ### The sender -/

theorem Sending.retire (h : Sending u t)
    (hgone : t.reader.inHand = [] ∨ t.result.isSome = true ∧ t.reader ≠ .ended) :
    Sending u { t with reader := .ended } where
  read := h.read
  moving := by
    obtain ⟨dropped, hprovided, hnone⟩ := h.moving
    refine ⟨t.reader.inHand ++ dropped, ?_, fun hwhole => ?_⟩
    · rw [hprovided]
      unfold State.moving
      simp only [Reader.inHand, List.append_assoc, List.nil_append]
    · rcases hgone with hgone | ⟨hsome, hreader⟩
      · rw [hgone]
        refine hnone ?_
        rcases hwhole with hresult | hsent | hreader
        · exact .inl hresult
        · exact .inr (.inl hsent)
        · exact absurd rfl hreader
      · rcases hwhole with hresult | hsent | hended
        · have hresult : t.result = none := hresult
          rw [hresult] at hsome
          cases hsome
        · exact absurd (h.sent hsent).2 hreader
        · exact absurd rfl hended
  sent hsent := ⟨(h.sent hsent).1, rfl⟩
  progress := h.progress
  grows := h.grows

theorem not_sent (h : Sending u t) (hreader : t.reader ≠ .ended) : t.bodySent = false := by
  cases hsent : t.bodySent with
  | false => rfl
  | true => exact absurd (h.sent hsent).2 hreader

theorem Sending.begin (h : Sending u t) (hopening : t.reader = .opening) :
    Sending u { t with reader := .reading } where
  read := h.read
  moving := by
    obtain ⟨dropped, hprovided, hnone⟩ := h.moving
    refine ⟨dropped, ?_, fun _ => hnone (.inr (.inr ?_))⟩
    · rw [hprovided]
      unfold State.moving
      rw [hopening]
      rfl
    · rw [hopening]
      exact fun heq => by cases heq
  sent hsent := by
    have hended := (h.sent hsent).2
    rw [hopening] at hended
    cases hended
  progress := h.progress
  grows := h.grows

theorem Sending.read_step (h : Sending u t) (hstep : t.read u n = some t') : Sending u t' := by
  unfold State.read at hstep
  cases hreader : t.reader with
  | opening | sending | ended =>
      rw [hreader] at hstep
      cases hstep
  | reading =>
      rw [hreader] at hstep
      dsimp only at hstep
      have hne : t.reader ≠ .ended := by
        rw [hreader]
        exact fun heq => by cases heq
      split_ifs at hstep with hrest hn
      · obtain rfl := Option.some.inj hstep
        exact h.retire (.inl (by rw [hreader]; rfl))
      · obtain rfl := Option.some.inj hstep
        obtain ⟨rest, hsource⟩ := h.read
        have hdrop : u.source.drop t.provided.length = rest := by
          rw [← hsource, List.drop_left]
        rw [hdrop]
        refine ⟨?_, ?_, fun hsent => absurd (h.sent hsent).2 hne, h.progress, h.grows⟩
        · refine ⟨rest.drop n, ?_⟩
          show t.provided ++ rest.take n ++ rest.drop n = u.source
          rw [List.append_assoc, List.take_append_drop, hsource]
        · obtain ⟨dropped, hprovided, hnone⟩ := h.moving
          obtain rfl := hnone (.inr (.inr hne))
          refine ⟨[], ?_, fun _ => rfl⟩
          show t.provided ++ rest.take n = _
          rw [hprovided]
          unfold State.moving
          rw [hreader]
          simp only [Reader.inHand, List.append_nil, List.append_assoc]

theorem Sending.forward (h : Sending u t) (hstep : t.forward u = some t') : Sending u t' := by
  unfold State.forward at hstep
  cases hreader : t.reader with
  | opening | reading | ended =>
      rw [hreader] at hstep
      cases hstep
  | sending chunk =>
      rw [hreader] at hstep
      dsimp only at hstep
      have hne : t.reader ≠ .ended := by
        rw [hreader]
        exact fun heq => by cases heq
      split_ifs at hstep with hresult
      · obtain rfl := Option.some.inj hstep
        exact h.retire (.inr ⟨hresult, hne⟩)
      · obtain rfl := Option.some.inj hstep
        refine ⟨h.read, ?_, fun hsent => absurd (h.sent hsent).2 hne, h.progress, h.grows⟩
        obtain ⟨dropped, hprovided, hnone⟩ := h.moving
        refine ⟨dropped, ?_, fun _ => hnone (.inr (.inr hne))⟩
        show t.provided = _
        rw [hprovided]
        unfold State.moving
        rw [hreader]
        simp [Reader.inHand]

theorem Sending.pull (h : Sending u t) (hstep : t.pull = some t') : Sending u t' := by
  unfold State.pull at hstep
  split_ifs at hstep with hover
  cases hchunks : t.chunks with
  | nil =>
      rw [hchunks] at hstep
      cases hstep
  | cons chunk chunks =>
      rw [hchunks] at hstep
      obtain rfl := Option.some.inj hstep
      have hsent : State.sent { t with
          chunks := chunks, progress := t.progress ++ [t.sent + chunk.length],
          wire := t.wire ++ chunk } = t.sent + chunk.length := by
        unfold State.sent
        rw [List.getLast?_concat]
        rfl
      refine ⟨h.read, ?_, fun hsent => absurd (.inr hsent) hover, ?_, ?_, ?_⟩
      · obtain ⟨dropped, hprovided, hnone⟩ := h.moving
        refine ⟨dropped, ?_, hnone⟩
        show t.provided = _
        rw [hprovided]
        unfold State.moving
        rw [hchunks]
        simp
      · rw [hsent, h.progress]
        simp [Nat.add_assoc]
      · refine List.pairwise_append.mpr ⟨h.grows.1, List.pairwise_singleton _ _, ?_⟩
        intro p hp q hq
        rw [List.mem_singleton.mp hq]
        exact Nat.le_add_right_of_le (h.grows.2 p hp)
      · intro p hp
        rw [hsent]
        rcases List.mem_append.mp hp with hp | hp
        · exact Nat.le_add_right_of_le (h.grows.2 p hp)
        · exact Nat.le_of_eq (List.mem_singleton.mp hp)

theorem Sending.finish (h : Sending u t) (hstep : t.finish = some t') : Sending u t' := by
  unfold State.finish at hstep
  split_ifs at hstep with hover
  obtain rfl := Option.some.inj hstep
  push Not at hover
  obtain ⟨hresult, -, hchunks, hreader⟩ := hover
  refine ⟨h.read, ?_, fun _ => ⟨hchunks, hreader⟩, h.progress, h.grows⟩
  obtain ⟨dropped, hprovided, hnone⟩ := h.moving
  refine ⟨dropped, hprovided, fun _ => hnone (.inl ?_)⟩
  exact Option.isNone_iff_eq_none.mp (by simpa using hresult)

/-! ### The frames -/

/-- A frame takes its bytes from the wire. -/
theorem Sending.arrive {frame : Frame} {wire : Bytes} {save : SaveState} (h : Sending u t)
    (hbytes : frame.bytes ++ wire = t.wire) :
    Sending u { t with wire := wire, frames := t.frames ++ [frame], save := save } where
  read := h.read
  moving := by
    obtain ⟨dropped, hprovided, hnone⟩ := h.moving
    refine ⟨dropped, ?_, hnone⟩
    show t.provided = bodyBytes (t.frames ++ [frame]) ++ (wire ++ _ ++ _) ++ dropped
    rw [hprovided, bodyBytes_concat]
    unfold State.moving
    rw [← hbytes]
    simp only [List.append_assoc]
  sent := h.sent
  progress := by
    show t.sent = (bodyBytes (t.frames ++ [frame]) ++ wire).length
    rw [h.progress, bodyBytes_concat, List.append_assoc, hbytes]
  grows := h.grows

theorem Serving.arrive {frame : Frame} {wire : Bytes} {save : SaveState} (h : Serving toHex u t)
    (hwaits : t.save.handler = .forwarding [])
    (hstep : handlerStep toHex (u.request []) { t.save with handler := .forwarding [frame] } =
      some save) :
    Serving toHex u { t with wire := wire, frames := t.frames ++ [frame], save := save } := by
  have hopen : t.bodyRead = false := by
    cases hread : t.bodyRead with
    | false => rfl
    | true =>
        have hover := (h.bodyRead hread).2.2
        rw [hwaits] at hover
        cases hover
  refine ⟨handlerStep_frame_known hstep, fun hread => ?_, fun rest _ => ?_,
    fun heq => absurd heq (handlerStep_errors hstep).2.1, fun hresult => ?_⟩
  · have hread : t.bodyRead = true := hread
    rw [hopen] at hread
    cases hread
  · -- the handler finds the frame at the head of what follows
    have hsaving := h.saving (frame :: rest) fun hread => by
      rw [hopen] at hread
      cases hread
    have hbefore : t.save.before (frame :: rest) =
        SaveState.before { t.save with handler := .forwarding [frame] } rest := by
      unfold SaveState.before
      rw [hwaits]
      rfl
    have hframe : ({ t.save with handler := .forwarding [frame] } : SaveState).handler ≠
        .forwarding [] := fun heq => by cases heq
    have hnext : handlerStep toHex (u.request (t.frames ++ frame :: rest))
        (t.save.before (frame :: rest)) = some (save.before rest) := by
      rw [hbefore, handlerStep_before (b := []) hframe, hstep]
      rfl
    have hstepped : Saving toHex _ _ := hsaving.step (a := .handler) hnext
    show Saving toHex (u.request (t.frames ++ [frame] ++ rest)) (save.before rest)
    rw [List.append_assoc]
    exact hstepped
  · have hdone := h.result hresult
    rw [hwaits] at hdone
    cases hdone

theorem Serving.serve {act : UploadSaveAct} (h : Serving toHex u t)
    (hstep : t.serve toHex u act = some t') : Serving toHex u t' := by
  unfold State.serve at hstep
  split_ifs at hstep with hwaits
  obtain ⟨save, hsave, rfl⟩ := Option.map_eq_some_iff.mp hstep
  have hframe : act = .handler → t.save.handler ≠ .forwarding [] :=
    fun hact hpc => hwaits ⟨hact, hpc⟩
  obtain ⟨hknown, hover, hdone, hclosed⟩ :=
    uploadSaveStep_handler hsave h.known hframe h.closed
  refine ⟨hknown, fun hread => ?_, fun rest hrest => ?_, hclosed,
    fun hresult => hdone _ (h.result hresult)⟩
  · obtain ⟨hsent, hwire, hstopped⟩ := h.bodyRead hread
    exact ⟨hsent, hwire, hover hstopped⟩
  · refine (h.saving rest hrest).step (a := act) ?_
    rw [uploadSaveStep_before (b := []) hframe, hsave]
    rfl

theorem Serving.endBody (h : Serving toHex u t) (hstep : t.endBody toHex u = some t') :
    Serving toHex u t' := by
  unfold State.endBody at hstep
  split_ifs at hstep with hwaits
  obtain ⟨hpc, hwire, hsent⟩ := hwaits
  obtain ⟨save, hsave, rfl⟩ := Option.map_eq_some_iff.mp hstep
  have hended : save = { t.save with handler := .awaiting false, txDropped := true } := by
    unfold handlerStep at hsave
    rw [hpc] at hsave
    exact (Option.some.inj hsave).symm
  refine ⟨?_, fun _ => ⟨hsent, hwire, ?_⟩, fun rest hrest => ?_,
    fun heq => absurd heq (handlerStep_errors hsave).2.1, fun hresult => ?_⟩
  · rw [hended]
    rfl
  · rw [hended]
    rfl
  · obtain rfl : rest = [] := hrest rfl
    have hsaving := h.saving [] fun _ => rfl
    rw [SaveState.before_nil] at hsaving ⊢
    exact hsaving.step (a := .handler) hsave
  · have hdone := h.result hresult
    rw [hpc] at hdone
    cases hdone

/-! ### Every step -/

structure Inv (toHex : Bytes → String) (u : Setup) (t : State) : Prop where
  sending : Sending u t
  serving : Serving toHex u t

theorem inv_init : Inv toHex u u.init := ⟨sending_init, serving_init⟩

/-- Nothing that the server does is of the sender. -/
theorem Sending.saved {save : SaveState} {bodyRead : Bool} (h : Sending u t) :
    Sending u { t with bodyRead := bodyRead, save := save } :=
  ⟨h.read, h.moving, h.sent, h.progress, h.grows⟩

/-- The sender does nothing to the server. -/
theorem Serving.apart {reader : Reader} {provided : Bytes} {chunks : List Bytes}
    (h : Serving toHex u t) :
    Serving toHex u { t with reader := reader, provided := provided, chunks := chunks } :=
  ⟨h.known, h.bodyRead, h.saving, h.closed, h.result⟩

theorem Inv.arrive {frame : Frame} {wire : Bytes} (h : Inv toHex u t)
    (hbytes : frame.bytes ++ wire = t.wire)
    (hstep : State.arrive toHex u { t with wire := wire } frame = some t') : Inv toHex u t' := by
  unfold State.arrive at hstep
  split_ifs at hstep with hwaits
  obtain ⟨save, hsave, rfl⟩ := Option.map_eq_some_iff.mp hstep
  exact ⟨h.sending.arrive hbytes, h.serving.arrive hwaits hsave⟩

/-- The request is over. -/
theorem Inv.settled {result : Except UploadError Unit} (h : Inv toHex u t) (hnone : t.result = none)
    (hok : result = .ok () → t.save.handler = .done .success) :
    Inv toHex u { t with result := some result } := by
  obtain ⟨hsending, hserving⟩ := h
  refine ⟨⟨hsending.read, ?_, hsending.sent, hsending.progress, hsending.grows⟩,
    ⟨hserving.known, hserving.bodyRead, hserving.saving, hserving.closed, fun hresult => ?_⟩⟩
  · obtain ⟨dropped, hprovided, hwhole⟩ := hsending.moving
    exact ⟨dropped, hprovided, fun _ => hwhole (.inl hnone)⟩
  · exact hok (Option.some.inj hresult)

theorem Inv.step {e : Event} (h : Inv toHex u t) (hstep : step toHex u t e = some t') :
    Inv toHex u t' := by
  cases e with
  | opened ok =>
      dsimp only [Transmission.step] at hstep
      split_ifs at hstep with hopening
      · obtain rfl := Option.some.inj hstep
        exact ⟨h.sending.begin hopening, h.serving.apart⟩
      · obtain rfl := Option.some.inj hstep
        exact ⟨h.sending.retire (.inl (by rw [hopening]; rfl)), h.serving.apart⟩
  | read n =>
      refine ⟨h.sending.read_step hstep, ?_⟩
      change t.read u n = some t' at hstep
      unfold State.read at hstep
      split at hstep
      case h_1 =>
        dsimp only at hstep
        split_ifs at hstep
        · obtain rfl := Option.some.inj hstep
          exact h.serving.apart
        · obtain rfl := Option.some.inj hstep
          exact h.serving.apart
      all_goals cases hstep
  | readFailed =>
      dsimp only [Transmission.step] at hstep
      split_ifs at hstep with hreading
      obtain rfl := Option.some.inj hstep
      exact ⟨h.sending.retire (.inl (by rw [hreading]; rfl)), h.serving.apart⟩
  | forward =>
      refine ⟨h.sending.forward hstep, ?_⟩
      change t.forward u = some t' at hstep
      unfold State.forward at hstep
      split at hstep
      case h_1 =>
        split_ifs at hstep
        · obtain rfl := Option.some.inj hstep
          exact h.serving.apart
        · obtain rfl := Option.some.inj hstep
          exact h.serving.apart
      all_goals cases hstep
  | pull =>
      refine ⟨h.sending.pull hstep, ?_⟩
      change t.pull = some t' at hstep
      unfold State.pull at hstep
      split_ifs at hstep with hover
      split at hstep
      · cases hstep
      · obtain rfl := Option.some.inj hstep
        refine ⟨h.serving.known, fun hread => ?_, h.serving.saving, h.serving.closed,
          h.serving.result⟩
        exact absurd (.inr (h.serving.bodyRead hread).1) hover
  | finish =>
      refine ⟨h.sending.finish hstep, ?_⟩
      change t.finish = some t' at hstep
      unfold State.finish at hstep
      split_ifs at hstep
      obtain rfl := Option.some.inj hstep
      exact ⟨h.serving.known, fun hread => ⟨rfl, (h.serving.bodyRead hread).2⟩,
        h.serving.saving, h.serving.closed, h.serving.result⟩
  | deliver n =>
      change t.deliver toHex u n = some t' at hstep
      unfold State.deliver at hstep
      split_ifs at hstep
      exact h.arrive (List.take_append_drop n t.wire) hstep
  | bodyEnded =>
      refine ⟨?_, h.serving.endBody hstep⟩
      change t.endBody toHex u = some t' at hstep
      unfold State.endBody at hstep
      split_ifs at hstep
      obtain ⟨save, -, rfl⟩ := Option.map_eq_some_iff.mp hstep
      exact h.sending.saved
  | broken =>
      dsimp only [Transmission.step] at hstep
      split_ifs at hstep
      have hbytes : Frame.error.bytes ++ t.wire = t.wire := rfl
      exact h.arrive hbytes hstep
  | save act =>
      refine ⟨?_, h.serving.serve hstep⟩
      change t.serve toHex u act = some t' at hstep
      unfold State.serve at hstep
      split_ifs at hstep
      obtain ⟨save, -, rfl⟩ := Option.map_eq_some_iff.mp hstep
      exact h.sending.saved
  | respond verified =>
      change t.respond verified = some t' at hstep
      unfold State.respond at hstep
      split at hstep
      case h_1 result hnone hdone =>
        obtain rfl := Option.some.inj hstep
        refine h.settled hnone fun hok => ?_
        split_ifs at hok with hverified hsuccess
        rw [hdone, hsuccess]
      case h_2 => cases hstep
  | fail =>
      dsimp only [Transmission.step] at hstep
      split_ifs at hstep with hnone
      obtain rfl := Option.some.inj hstep
      exact h.settled (Option.isNone_iff_eq_none.mp hnone.1) fun hok => by cases hok
  | cancel =>
      dsimp only [Transmission.step] at hstep
      split_ifs at hstep with hnone
      obtain rfl := Option.some.inj hstep
      exact h.settled (Option.isNone_iff_eq_none.mp hnone) fun hok => by cases hok
  | lose =>
      dsimp only [Transmission.step] at hstep
      split_ifs at hstep
      obtain rfl := Option.some.inj hstep
      exact ⟨⟨h.sending.read, h.sending.moving, h.sending.sent, h.sending.progress,
        h.sending.grows⟩, ⟨h.serving.known, h.serving.bodyRead, h.serving.saving,
        h.serving.closed, h.serving.result⟩⟩

theorem inv_of_run (hrun : Reach (step toHex u) u.init t) : Inv toHex u t :=
  hrun.invariant inv_init fun _ _ _ h _ hstep => h.step hstep

end Places

/-! ## §6  What an answer says -/

section Answers

variable {toHex : Bytes → String} {u : Setup} {t t' : State}

theorem Inv.verdict {result : SaveResult} (h : Inv toHex u t)
    (hdone : t.save.handler = .done result) (rest : List Frame)
    (hrest : t.bodyRead = true → rest = []) :
    SaveVerdict toHex (u.request (t.frames ++ rest)) (t.save.before rest) result := by
  have hbefore : (t.save.before rest).handler = .done result := by
    unfold SaveState.before
    rw [hdone]
    rfl
  have halive : (t.save.before rest).handler ≠ .dropped := by
    rw [hbefore]
    exact fun heq => by cases heq
  cases (h.serving.saving rest hrest).handler halive with
  | forwarding seen rest alive pc => rw [hbefore] at pc; cases pc
  | sending seen rest chunk alive pc => rw [hbefore] at pc; cases pc
  | closed pc => rw [hbefore] at pc; cases pc
  | broken pc => rw [hbefore] at pc; cases pc
  | done result' pc _ verdict =>
      rw [hbefore] at pc
      cases pc
      exact verdict

/-- Only a body that was read to its end is complete, whatever else might follow. -/
theorem Inv.bodyRead_of_success (h : Inv toHex u t) (hdone : t.save.handler = .done .success) :
    t.bodyRead = true := by
  cases hread : t.bodyRead with
  | true => rfl
  | false =>
      have hopen : ∀ rest, t.bodyRead = true → rest = ([] : List Frame) := by
        intro rest htrue
        rw [hread] at htrue
        cases htrue
      have hshort := ((h.verdict hdone [] (hopen _)).success.mp rfl).1.2.1
      have hlong := ((h.verdict hdone [.data [0]] (hopen _)).success.mp rfl).1.2.1
      change (bodyBytes (t.frames ++ [])).length = u.fileSize at hshort
      change (bodyBytes (t.frames ++ [.data [0]])).length = u.fileSize at hlong
      rw [List.append_nil] at hshort
      rw [bodyBytes_concat, List.length_append, hshort] at hlong
      exact absurd hlong (Nat.succ_ne_self _)

theorem Inv.provided_of_bodySent (h : Inv toHex u t) (hsent : t.bodySent = true) :
    t.provided = bodyBytes t.frames ++ t.wire := by
  obtain ⟨hchunks, hreader⟩ := h.sending.sent hsent
  obtain ⟨dropped, hprovided, hnone⟩ := h.sending.moving
  obtain rfl := hnone (.inr (.inl hsent))
  rw [hprovided]
  unfold State.moving
  rw [hchunks, hreader]
  simp [Reader.inHand]

/-- What it means that the server has saved a file. A descriptor that cannot be truncated keeps
what it held beyond the new content. -/
structure Delivered (toHex : Bytes → String) (u : Setup) (t : State) : Prop where
  provided : t.provided = u.source.take u.fileSize
  enough : u.fileSize ≤ u.source.length
  reader : t.reader = .ended
  sent : t.sent = u.fileSize
  disk : t.save.disk (u.request []) = some (u.source.take u.fileSize) ∨ u.target = .fd ∧
    t.save.disk (u.request []) =
      some (u.source.take u.fileSize ++ (u.initial.getD []).drop u.fileSize)
  hash : (u.request []).hashMatches toHex (u.source.take u.fileSize) = true
  app : t.save.app = .sent (.ok ())

theorem Inv.delivered (h : Inv toHex u t) (hdone : t.save.handler = .done .success) :
    Delivered toHex u t := by
  have hread := h.bodyRead_of_success hdone
  obtain ⟨hsent, hwire, -⟩ := h.serving.bodyRead hread
  have hprovided := h.provided_of_bodySent hsent
  rw [hwire, List.append_nil] at hprovided
  have hverdict := h.verdict hdone [] fun _ => rfl
  rw [SaveState.before_nil, List.append_nil] at hverdict
  obtain ⟨hcomplete, hhash⟩ := hverdict.success.mp rfl
  have hlength : (bodyBytes t.frames).length = u.fileSize := hcomplete.2.1
  have htake : bodyBytes t.frames = u.source.take u.fileSize := by
    rw [← hprovided, ← hlength, ← hprovided]
    exact List.prefix_iff_eq_take.mp h.sending.read
  refine ⟨hprovided.trans htake, ?_, (h.sending.sent hsent).2, ?_, ?_, ?_, hverdict.app.mpr rfl⟩
  · rw [← hlength, ← hprovided]
    exact h.sending.read.length_le
  · rw [h.sending.progress, hwire, List.append_nil, hlength]
  · rw [← htake]
    exact hverdict.content hcomplete
  · rw [← htake]
    exact hhash

/-- **From file to file**, for every file, channel, way to cut the body, schedule and failure.
What has arrived is always a beginning of the file, and the sender is told no less than that; an
upload that the sender finds successful is successful for the server; and then the file that was
saved is the one that was sent, as far as its size was announced. -/
theorem upload_delivers (toHex : Bytes → String) (u : Setup) {t : State}
    (hrun : Reach (step toHex u) u.init t) :
    (bodyBytes t.frames ++ t.wire <+: u.source ∧
      t.sent = (bodyBytes t.frames ++ t.wire).length ∧ t.progress.Pairwise (· ≤ ·)) ∧
    (t.result = some (.ok ()) → t.save.handler = .done .success) ∧
    (t.save.handler = .done .success → Delivered toHex u t) := by
  have hinv := inv_of_run hrun
  refine ⟨⟨?_, hinv.sending.progress, hinv.sending.grows.1⟩, hinv.serving.result, hinv.delivered⟩
  obtain ⟨dropped, hprovided, -⟩ := hinv.sending.moving
  refine List.IsPrefix.trans ⟨t.chunks.flatten ++ t.reader.inHand ++ dropped, ?_⟩ hinv.sending.read
  rw [hprovided]
  unfold State.moving
  simp only [List.append_assoc]

/-- Three bytes, read in two pieces and cut anew. -/
def threeBytes : Setup := ⟨.path, [1, 2, 3], .path "/in/a.txt", 3, some "AB", some [9, 9, 9, 9]⟩

def threeBytesSent : List Event :=
  [.opened true, .read 2, .forward, .pull, .read 5, .deliver 1, .forward, .read 5, .save .handler,
    .pull, .finish, .deliver 9, .save (.writer (.ok 0)), .save .handler, .bodyEnded,
    .save (.writer (.ok 1)), .save (.writer (.ok 0)), .save (.writer (.ok 0)),
    .save (.writer (.ok 0)), .save .handler, .respond true]

theorem upload_delivers_threeBytes : ∃ t,
    exec (step Sample.toHex threeBytes) threeBytes.init threeBytesSent = some t ∧
      t.progress = [2, 3] ∧ t.frames = [.data [1], .data [2, 3]] ∧
      t.save.disk (threeBytes.request []) = some [1, 2, 3] := by
  obtain ⟨t, hexec, hcheck⟩ := exists_of_exec_any (step Sample.toHex threeBytes) threeBytes.init
    threeBytesSent (fun t => decide (t.result = some (.ok ()) ∧ t.progress = [2, 3] ∧
      t.frames = [.data [1], .data [2, 3]])) (by decide)
  obtain ⟨hresult, hprogress, hframes⟩ := of_decide_eq_true hcheck
  obtain ⟨-, hdone, hdelivered⟩ :=
    upload_delivers Sample.toHex threeBytes (reach_of_exec hexec)
  refine ⟨t, hexec, hprogress, hframes, ?_⟩
  exact (hdelivered (hdone hresult)).disk.resolve_right fun hfd => by cases hfd.1

end Answers

/-! ## §7  Every upload ends -/

section Ends

variable {toHex : Bytes → String} {u : Setup} {t t' : State} {n : ℕ}

def Reader.work : Reader → ℕ
  | .opening => 2
  | .reading => 1
  | .sending chunk => 4 * chunk.length + 3
  | .ended => 0

/-- What every byte and every chunk have still before them. -/
def State.work (u : Setup) (t : State) : ℕ :=
  7 * (u.source.length - t.provided.length) + t.reader.work +
    (t.chunks.map fun chunk => 4 * chunk.length + 1).sum + 4 * t.wire.length + t.save.size +
    (if t.bodySent then 0 else 1) + (if t.result.isSome then 0 else 1) + (if t.lost then 0 else 1)

/-- Nothing fails and nobody gives up. -/
def Event.sound : Event → Bool
  | .opened ok | .respond ok => ok
  | .save (.writer (.ok _)) => true
  | .save (.writer (.err _ _)) => false
  | .read _ | .forward | .pull | .finish | .deliver _ | .bodyEnded | .save .handler => true
  | .readFailed | .broken | .save .drop | .fail | .cancel | .lose => false

/-- What happens without a failure and without anybody's doing. -/
def Event.own : Event → Bool
  | .broken | .fail => true
  | e => e.sound

theorem read_work (hstep : t.read u n = some t') : t'.work u < t.work u := by
  unfold State.read at hstep
  unfold State.work
  cases hreader : t.reader with
  | opening | sending | ended =>
      rw [hreader] at hstep
      cases hstep
  | reading =>
      rw [hreader] at hstep
      dsimp only at hstep
      split_ifs at hstep with hrest hn
      · obtain rfl := Option.some.inj hstep
        dsimp only [Reader.work]
        omega
      · obtain rfl := Option.some.inj hstep
        have hleft : t.provided.length < u.source.length := by
          by_contra hle
          exact hrest (List.drop_eq_nil_of_le (Nat.le_of_not_lt hle))
        dsimp only [Reader.work]
        rw [List.length_append, List.length_take, List.length_drop]
        omega

theorem forward_work (hstep : t.forward u = some t') : t'.work u < t.work u := by
  unfold State.forward at hstep
  unfold State.work
  cases hreader : t.reader with
  | opening | reading | ended =>
      rw [hreader] at hstep
      cases hstep
  | sending chunk =>
      rw [hreader] at hstep
      dsimp only at hstep
      split_ifs at hstep
      · obtain rfl := Option.some.inj hstep
        dsimp only [Reader.work]
        omega
      · obtain rfl := Option.some.inj hstep
        dsimp only [Reader.work]
        rw [List.map_append, List.sum_append, List.map_singleton, List.sum_singleton]
        omega

theorem pull_work (hstep : t.pull = some t') : t'.work u < t.work u := by
  unfold State.pull at hstep
  split_ifs at hstep
  unfold State.work
  cases hchunks : t.chunks with
  | nil =>
      rw [hchunks] at hstep
      cases hstep
  | cons chunk chunks =>
      rw [hchunks] at hstep
      obtain rfl := Option.some.inj hstep
      dsimp only
      rw [List.length_append, List.map_cons, List.sum_cons]
      omega

theorem finish_work (hstep : t.finish = some t') : t'.work u < t.work u := by
  unfold State.finish at hstep
  split_ifs at hstep with hover
  obtain rfl := Option.some.inj hstep
  push Not at hover
  unfold State.work
  rw [if_pos rfl, if_neg hover.2.1]
  dsimp only
  omega

/-- To read a frame costs the handler less than the bytes had before them on the wire. -/
theorem deliver_work (hstep : t.deliver toHex u n = some t') : t'.work u < t.work u := by
  unfold State.deliver State.arrive at hstep
  split_ifs at hstep with hnone hwaits
  push Not at hnone
  obtain ⟨save, hsave, rfl⟩ := Option.map_eq_some_iff.mp hstep
  have hsize := handlerStep_size hsave
  have hframe : ({ t.save with handler := .forwarding [.data (t.wire.take n)] } : SaveState).size =
      t.save.size + 4 := by
    unfold SaveState.size
    dsimp only at hwaits ⊢
    rw [hwaits]
    dsimp only [SaveHandler.size]
    rw [List.length_singleton, List.length_nil]
    omega
  have hwire : 0 < t.wire.length := List.length_pos_iff.mpr hnone.2
  unfold State.work
  dsimp only at hsize ⊢
  rw [hframe] at hsize
  rw [List.length_drop]
  omega

theorem broken_work (hstep : t.arrive toHex u .error = some t') : t'.work u < t.work u := by
  unfold State.arrive at hstep
  split_ifs at hstep with hwaits
  obtain ⟨save, hsave, rfl⟩ := Option.map_eq_some_iff.mp hstep
  obtain rfl := Option.some.inj hsave
  unfold State.work SaveState.size
  rw [hwaits]
  dsimp only [SaveHandler.size]
  rw [List.length_nil]
  omega

theorem endBody_work (hstep : t.endBody toHex u = some t') : t'.work u < t.work u := by
  unfold State.endBody at hstep
  split_ifs at hstep
  obtain ⟨save, hsave, rfl⟩ := Option.map_eq_some_iff.mp hstep
  have hsize := handlerStep_size hsave
  unfold State.work
  dsimp only
  omega

theorem serve_work {act : UploadSaveAct} (hstep : t.serve toHex u act = some t') :
    t'.work u < t.work u := by
  unfold State.serve at hstep
  split_ifs at hstep
  obtain ⟨save, hsave, rfl⟩ := Option.map_eq_some_iff.mp hstep
  have hsize := uploadSaveStep_size hsave
  unfold State.work
  dsimp only
  omega

theorem over_work {result : Except UploadError Unit} (hnone : t.result = none) :
    State.work u { t with result := some result } < t.work u := by
  unfold State.work
  rw [hnone]
  dsimp only [Option.isSome]
  rw [if_pos rfl, if_neg Bool.false_ne_true]
  omega

theorem step_work {e : Event} (hstep : step toHex u t e = some t') : t'.work u < t.work u := by
  cases e with
  | opened ok =>
      dsimp only [step] at hstep
      split_ifs at hstep with hopening hok
      · obtain rfl := Option.some.inj hstep
        unfold State.work
        rw [hopening]
        dsimp only [Reader.work]
        omega
      · obtain rfl := Option.some.inj hstep
        unfold State.work
        rw [hopening]
        dsimp only [Reader.work]
        omega
  | read n => exact read_work hstep
  | readFailed =>
      dsimp only [step] at hstep
      split_ifs at hstep with hreading
      obtain rfl := Option.some.inj hstep
      unfold State.work
      rw [hreading]
      dsimp only [Reader.work]
      omega
  | forward => exact forward_work hstep
  | pull => exact pull_work hstep
  | finish => exact finish_work hstep
  | deliver n => exact deliver_work hstep
  | bodyEnded => exact endBody_work hstep
  | broken =>
      dsimp only [step] at hstep
      split_ifs at hstep
      exact broken_work hstep
  | save act => exact serve_work hstep
  | respond verified =>
      change t.respond verified = some t' at hstep
      unfold State.respond at hstep
      split at hstep
      case h_1 hnone hdone =>
        obtain rfl := Option.some.inj hstep
        exact over_work hnone
      case h_2 => cases hstep
  | fail =>
      dsimp only [step] at hstep
      split_ifs at hstep with hnone
      obtain rfl := Option.some.inj hstep
      exact over_work (Option.isNone_iff_eq_none.mp hnone.1)
  | cancel =>
      dsimp only [step] at hstep
      split_ifs at hstep with hnone
      obtain rfl := Option.some.inj hstep
      exact over_work (Option.isNone_iff_eq_none.mp hnone)
  | lose =>
      dsimp only [step] at hstep
      split_ifs at hstep with hlost
      obtain rfl := Option.some.inj hstep
      unfold State.work
      rw [if_neg hlost, if_pos rfl]
      dsimp only
      omega

/-! ### Without failures -/

/-- What holds as long as nothing failed. -/
structure Sound (u : Setup) (t : State) : Prop where
  intact : .error ∉ t.frames
  ioErrors : t.save.ioErrors = []
  whole : t.reader = .ended → t.provided = u.source ∨ t.result.isSome = true
  sent : t.bodySent = true → t.provided = u.source
  alive : t.save.handler ≠ .dropped
  answered : t.result.isSome = true → ∃ result, t.save.handler = .done result ∧
    (t.result = some (.ok ()) ↔ result = .success)

theorem sound_init : Sound u u.init where
  intact := List.not_mem_nil
  ioErrors := rfl
  whole hended := by
    unfold Setup.init at hended
    cases hcontent : u.content <;> (rw [hcontent] at hended; cases hended)
  sent hsent := by cases hsent
  alive heq := by cases heq
  answered hresult := by cases hresult

theorem writerStep_errors {s s' : SaveState} {body : List Frame} {k : ℕ}
    (hstep : writerStep (u.request body) s (.ok k) = some s') : s'.ioErrors = s.ioErrors := by
  unfold writerStep at hstep
  split at hstep
  case h_1 =>
    obtain rfl := Option.some.inj hstep
    unfold openTarget
    cases (u.request body).target <;> rfl
  case h_2 =>
    split at hstep
    · dsimp only at hstep
      split_ifs at hstep <;> (obtain rfl := Option.some.inj hstep; rfl)
    · split_ifs at hstep
      obtain rfl := Option.some.inj hstep
      unfold flushFile
      dsimp only
      split_ifs <;> rfl
  case h_3 =>
    obtain rfl := Option.some.inj hstep
    rfl
  case h_4 => cases hstep

/-- The handler goes on, which it has not done before an answer. -/
theorem Sound.handled {frames : List Frame} {save : SaveState} (h : Sound u t) (wire : Bytes)
    (bodyRead : Bool) (hintact : .error ∉ frames) (herrors : save.ioErrors = t.save.ioErrors)
    (halive : save.handler ≠ .dropped) (hrunning : ∀ result, t.save.handler ≠ .done result) :
    Sound u { t with wire := wire, frames := frames, bodyRead := bodyRead, save := save } where
  intact := hintact
  ioErrors := herrors.trans h.ioErrors
  whole := h.whole
  sent := h.sent
  alive := halive
  answered hresult := by
    obtain ⟨result, hdone, -⟩ := h.answered hresult
    exact absurd hdone (hrunning result)

theorem Sound.step {e : Event} (h : Sound u t) (hinv : Inv toHex u t) (hsound : e.sound = true)
    (hstep : step toHex u t e = some t') : Sound u t' := by
  cases e with
  | readFailed | broken | fail | cancel | lose => cases hsound
  | opened ok =>
      obtain rfl : ok = true := hsound
      dsimp only [Transmission.step] at hstep
      rw [if_pos rfl] at hstep
      split_ifs at hstep
      obtain rfl := Option.some.inj hstep
      exact ⟨h.intact, h.ioErrors, fun hended => (by cases hended), h.sent, h.alive, h.answered⟩
  | read n =>
      change t.read u n = some t' at hstep
      unfold State.read at hstep
      split at hstep
      case h_1 hreading =>
        have hne : t.reader ≠ .ended := by
          rw [hreading]
          exact fun heq => by cases heq
        dsimp only at hstep
        split_ifs at hstep with hrest
        · obtain rfl := Option.some.inj hstep
          obtain ⟨rest, hsource⟩ := hinv.sending.read
          rw [← hsource, List.drop_left] at hrest
          rw [hrest, List.append_nil] at hsource
          exact ⟨h.intact, h.ioErrors, fun _ => .inl hsource, h.sent, h.alive, h.answered⟩
        · obtain rfl := Option.some.inj hstep
          exact ⟨h.intact, h.ioErrors, fun hended => (by cases hended),
            fun hsent => absurd (hinv.sending.sent hsent).2 hne, h.alive, h.answered⟩
      all_goals cases hstep
  | forward =>
      change t.forward u = some t' at hstep
      unfold State.forward at hstep
      split at hstep
      case h_1 =>
        split_ifs at hstep with hresult
        · obtain rfl := Option.some.inj hstep
          exact ⟨h.intact, h.ioErrors, fun _ => .inr hresult, h.sent, h.alive, h.answered⟩
        · obtain rfl := Option.some.inj hstep
          exact ⟨h.intact, h.ioErrors, fun hended => (by cases hended), h.sent, h.alive,
            h.answered⟩
      all_goals cases hstep
  | pull =>
      change t.pull = some t' at hstep
      unfold State.pull at hstep
      split_ifs at hstep
      split at hstep
      · cases hstep
      · obtain rfl := Option.some.inj hstep
        exact ⟨h.intact, h.ioErrors, h.whole, h.sent, h.alive, h.answered⟩
  | finish =>
      change t.finish = some t' at hstep
      unfold State.finish at hstep
      split_ifs at hstep with hover
      obtain rfl := Option.some.inj hstep
      push Not at hover
      obtain ⟨hresult, -, -, hreader⟩ := hover
      exact ⟨h.intact, h.ioErrors, h.whole,
        fun _ => (h.whole hreader).resolve_right hresult, h.alive, h.answered⟩
  | deliver n =>
      change t.deliver toHex u n = some t' at hstep
      unfold State.deliver State.arrive at hstep
      split_ifs at hstep with hnone hwaits
      obtain ⟨save, hsave, rfl⟩ := Option.map_eq_some_iff.mp hstep
      obtain ⟨herrors, halive, -⟩ := handlerStep_errors hsave
      have hwaits : t.save.handler = .forwarding [] := hwaits
      refine h.handled (t.wire.drop n) t.bodyRead (fun hmem => ?_) herrors halive
        fun result hdone => ?_
      · rcases List.mem_append.mp hmem with hmem | hmem
        · exact h.intact hmem
        · cases List.mem_singleton.mp hmem
      · rw [hwaits] at hdone
        cases hdone
  | bodyEnded =>
      change t.endBody toHex u = some t' at hstep
      unfold State.endBody at hstep
      split_ifs at hstep
      obtain ⟨save, hsave, rfl⟩ := Option.map_eq_some_iff.mp hstep
      obtain ⟨herrors, halive, hrunning⟩ := handlerStep_errors hsave
      exact h.handled t.wire true h.intact herrors halive hrunning
  | save act =>
      change t.serve toHex u act = some t' at hstep
      unfold State.serve at hstep
      split_ifs at hstep
      obtain ⟨save, hsave, rfl⟩ := Option.map_eq_some_iff.mp hstep
      cases act with
      | drop => cases hsound
      | handler =>
          obtain ⟨herrors, halive, hrunning⟩ := handlerStep_errors hsave
          exact h.handled t.wire t.bodyRead h.intact herrors halive hrunning
      | writer io =>
          cases io with
          | err k text => cases hsound
          | ok k =>
              have hhandler := (writerStep_frame hsave).handler
              refine ⟨h.intact, (writerStep_errors hsave).trans h.ioErrors, h.whole, h.sent, ?_, ?_⟩
              · show save.handler ≠ .dropped
                rw [hhandler]
                exact h.alive
              · show t.result.isSome = true → ∃ result, save.handler = .done result ∧ _
                rw [hhandler]
                exact h.answered
  | respond verified =>
      change t.respond verified = some t' at hstep
      unfold State.respond at hstep
      split at hstep
      case h_1 result hnone hdone =>
        obtain rfl := Option.some.inj hstep
        refine ⟨h.intact, h.ioErrors, fun _ => .inr rfl, h.sent, h.alive,
          fun _ => ⟨result, hdone, ?_⟩⟩
        -- a sound step verifies the certificate
        obtain rfl : verified = true := hsound
        show some (if result = .success then Except.ok () else .error UploadError.status) = _ ↔ _
        by_cases hsuccess : result = .success
        · rw [if_pos hsuccess]
          exact iff_of_true rfl hsuccess
        · rw [if_neg hsuccess]
          exact iff_of_false (fun heq => by cases heq) hsuccess
      case h_2 => cases hstep

/-! ### Where nothing is left to do -/

/-- The tasks of the server stop only for a frame, and in the end. -/
theorem served_of_stuck (h : Inv toHex u t)
    (hstuck : ∀ e : Event, e.own = true → step toHex u t e = none) :
    (t.save.txDropped = true → ∃ written, t.save.writer = .ended written) ∧
      (t.save.handler ≠ .forwarding [] →
        t.save.handler = .dropped ∨ ∃ result, t.save.handler = .done result) := by
  have hwriter : writerStep (u.request []) t.save (.ok 0) = none := by
    have hserve : t.serve toHex u (.writer (.ok 0)) = none := hstuck (.save (.writer (.ok 0))) rfl
    unfold State.serve at hserve
    rw [if_neg fun hact => by cases hact.1] at hserve
    exact Option.map_eq_none_iff.mp hserve
  have hidle : t.save.rxClosed = false → ¬(t.save.queue ≠ [] ∨ t.save.txDropped = true) := by
    intro hrunning hchunk
    obtain ⟨save, hsave⟩ := exists_writerStep (r := u.request []) hrunning hchunk
    rw [hwriter] at hsave
    cases hsave
  have hended : t.save.txDropped = true → ∃ written, t.save.writer = .ended written := by
    intro hclosed
    cases hwriter' : t.save.writer with
    | ended written => exact ⟨written, rfl⟩
    | opening | receiving | truncating =>
        refine absurd (.inr hclosed) (hidle ?_)
        unfold SaveState.rxClosed
        rw [hwriter']
  refine ⟨hended, fun hwaits => ?_⟩
  have hhandler : handlerStep toHex (u.request []) t.save = none := by
    have hserve : t.serve toHex u .handler = none := hstuck (.save .handler) rfl
    unfold State.serve at hserve
    rw [if_neg fun hact => hwaits hact.2] at hserve
    exact Option.map_eq_none_iff.mp hserve
  have hknown := h.serving.known
  unfold handlerStep at hhandler
  cases hpc : t.save.handler with
  | dropped => exact .inl rfl
  | done result => exact .inr ⟨result, rfl⟩
  | forwarding frames =>
      rw [hpc] at hknown
      obtain rfl : frames = [] := hknown
      exact absurd hpc hwaits
  | sending bytes frames =>
      rw [hpc] at hhandler
      dsimp only at hhandler
      split_ifs at hhandler with hclosed hroom
      -- the channel is full, so the writer can go on
      refine absurd (.inl fun hqueue => hroom ?_) (hidle (Bool.eq_false_iff.mpr hclosed))
      rw [hqueue]
      exact Nat.succ_pos _
  | awaiting streamError =>
      have hsaving := h.serving.saving [] fun _ => rfl
      rw [SaveState.before_nil] at hsaving
      have hclosed : t.save.txDropped = true := by
        cases hsaving.handler (by rw [hpc]; exact fun heq => by cases heq) with
        | forwarding seen rest alive pc => rw [hpc] at pc; cases pc
        | sending seen rest chunk alive pc => rw [hpc] at pc; cases pc
        | closed pc closed => exact closed
        | broken pc closed => exact closed
        | done result pc => rw [hpc] at pc; cases pc
      obtain ⟨written, hwritten⟩ := hended hclosed
      rw [hpc, hwritten] at hhandler
      cases hhandler

theorem chunks_of_pull (hpull : t.pull = none) (hresult : ¬t.result.isSome = true)
    (hsent : ¬t.bodySent = true) : t.chunks = [] := by
  unfold State.pull at hpull
  rw [if_neg fun hany => hany.elim hresult hsent] at hpull
  cases hchunks : t.chunks with
  | nil => rfl
  | cons chunk chunks =>
      rw [hchunks] at hpull
      cases hpull

theorem reader_of_stuck (h : Inv toHex u t)
    (hstuck : ∀ e : Event, e.own = true → step toHex u t e = none) : t.reader = .ended := by
  cases hreader : t.reader with
  | ended => rfl
  | opening =>
      have hopened := hstuck (.opened true) rfl
      dsimp only [step] at hopened
      rw [if_pos hreader] at hopened
      cases hopened
  | reading =>
      have hread : t.read u 1 = none := hstuck (.read 1) rfl
      unfold State.read at hread
      rw [hreader] at hread
      dsimp only at hread
      split_ifs at hread with hrest hone
      exact hone.elim
  | sending chunk =>
      have hsent := not_sent h.sending (by rw [hreader]; exact fun heq => by cases heq)
      have hforward : t.forward u = none := hstuck .forward rfl
      unfold State.forward at hforward
      rw [hreader] at hforward
      dsimp only at hforward
      split_ifs at hforward with hresult hroom
      -- the channel is full, so the client can take a chunk
      have hchunks := chunks_of_pull (hstuck .pull rfl) hresult
        (by rw [hsent]; exact Bool.false_ne_true)
      rw [hchunks] at hroom
      refine absurd ?_ hroom
      cases u.content with
      | stream | path | fd => exact Nat.succ_pos _

theorem bodySent_of_stuck (hstuck : ∀ e : Event, e.own = true → step toHex u t e = none)
    (hreader : t.reader = .ended) (hresult : ¬t.result.isSome = true) : t.bodySent = true := by
  by_contra hsent
  have hchunks := chunks_of_pull (hstuck .pull rfl) hresult hsent
  have hfinish : t.finish = none := hstuck .finish rfl
  unfold State.finish at hfinish
  rw [if_neg fun hany => hany.elim hresult fun hany => hany.elim hsent fun hany =>
    hany.elim (fun hne => hne hchunks) fun hne => hne hreader] at hfinish
  cases hfinish

/-- A frame is there, or the end of the body. -/
theorem fed_of_stuck (hstuck : ∀ e : Event, e.own = true → step toHex u t e = none)
    (hsent : t.bodySent = true) : t.save.handler ≠ .forwarding [] := by
  intro hwaits
  by_cases hwire : t.wire = []
  · have hend : t.endBody toHex u = none := hstuck .bodyEnded rfl
    unfold State.endBody at hend
    rw [if_pos ⟨hwaits, hwire, hsent⟩] at hend
    have hhandler := Option.map_eq_none_iff.mp hend
    unfold handlerStep at hhandler
    rw [hwaits] at hhandler
    cases hhandler
  · have hdeliver : t.deliver toHex u 1 = none := hstuck (.deliver 1) rfl
    unfold State.deliver State.arrive at hdeliver
    rw [if_neg fun hany => hany.elim Nat.one_ne_zero hwire, if_pos hwaits] at hdeliver
    have hhandler := Option.map_eq_none_iff.mp hdeliver
    unfold handlerStep at hhandler
    dsimp only at hhandler
    split_ifs at hhandler

theorem answered_of_stuck (h : Inv toHex u t)
    (hstuck : ∀ e : Event, e.own = true → step toHex u t e = none) :
    t.result.isSome = true := by
  by_contra hresult
  have hnone : t.result = none := by simpa using hresult
  have hsent := bodySent_of_stuck hstuck (reader_of_stuck h hstuck) hresult
  rcases (served_of_stuck h hstuck).2 (fed_of_stuck hstuck hsent) with hdropped | ⟨result, hdone⟩
  · have hfail := hstuck .fail rfl
    dsimp only [step] at hfail
    rw [if_pos ⟨by rw [hnone]; rfl, .inr hdropped⟩] at hfail
    cases hfail
  · have hrespond : t.respond true = none := hstuck (.respond true) rfl
    unfold State.respond at hrespond
    rw [hnone, hdone] at hrespond
    cases hrespond

theorem rests_of_stuck (h : Inv toHex u t)
    (hstuck : ∀ e : Event, e.own = true → step toHex u t e = none) :
    t.reader = .ended ∧ t.result.isSome = true ∧
      (∃ written, t.save.writer = .ended written) ∧
      (t.save.handler = .dropped ∨ ∃ result, t.save.handler = .done result) := by
  obtain ⟨hended, hover⟩ := served_of_stuck h hstuck
  have hresult := answered_of_stuck h hstuck
  have hstopped : t.save.handler = .dropped ∨ ∃ result, t.save.handler = .done result := by
    refine hover fun hwaits => ?_
    have hbroken : step toHex u t .broken = none := hstuck .broken rfl
    dsimp only [step] at hbroken
    rw [if_pos (.inr hresult)] at hbroken
    unfold State.arrive at hbroken
    rw [if_pos hwaits] at hbroken
    cases Option.map_eq_none_iff.mp hbroken
  refine ⟨reader_of_stuck h hstuck, hresult, ?_, hstopped⟩
  rcases hstopped with hdropped | ⟨result, hdone⟩
  · exact hended (h.serving.closed hdropped)
  · have hsaving := h.serving.saving [] fun _ => rfl
    rw [SaveState.before_nil] at hsaving
    cases hsaving.handler (by rw [hdone]; exact fun heq => by cases heq) with
    | forwarding seen rest alive pc => rw [hdone] at pc; cases pc
    | sending seen rest chunk alive pc => rw [hdone] at pc; cases pc
    | closed pc => rw [hdone] at pc; cases pc
    | broken pc => rw [hdone] at pc; cases pc
    | done result' pc ended => exact ended

/-- Without failures the answer depends on the size and the hash alone. -/
theorem Sound.answer (h : Sound u t) (hinv : Inv toHex u t) (hresult : t.result.isSome = true) :
    t.result = some (.ok ()) ↔ u.source.length = u.fileSize ∧
      (u.request []).hashMatches toHex u.source = true := by
  obtain ⟨result, hdone, hanswer⟩ := h.answered hresult
  -- what has not reached the handler might still, if the body was not read to its end
  obtain ⟨rest, hopen, hsource, hintact⟩ : ∃ rest : List Frame, (t.bodyRead = true → rest = []) ∧
      bodyBytes (t.frames ++ rest) = u.source ∧ .error ∉ t.frames ++ rest := by
    cases hread : t.bodyRead with
    | true =>
        obtain ⟨hsent, hwire, -⟩ := hinv.serving.bodyRead hread
        have hprovided := hinv.provided_of_bodySent hsent
        rw [hwire, List.append_nil, h.sent hsent] at hprovided
        refine ⟨[], fun _ => rfl, ?_, ?_⟩
        · rw [List.append_nil]
          exact hprovided.symm
        · rw [List.append_nil]
          exact h.intact
    | false =>
        obtain ⟨dropped, hprovided, -⟩ := hinv.sending.moving
        obtain ⟨more, hmore⟩ := hinv.sending.read
        refine ⟨[.data (t.moving ++ dropped ++ more)], fun htrue => (by cases htrue), ?_, ?_⟩
        · rw [bodyBytes_concat, ← hmore, hprovided]
          simp only [Frame.bytes, List.append_assoc]
        · intro hmem
          rcases List.mem_append.mp hmem with hmem | hmem
          · exact h.intact hmem
          · cases List.mem_singleton.mp hmem
  have hverdict := (hinv.verdict hdone rest hopen).success
  have hcomplete : (u.request (t.frames ++ rest)).Complete (t.save.before rest) ↔
      u.source.length = u.fileSize := by
    constructor
    · rintro ⟨-, hlength, -⟩
      rw [← hsource]
      exact hlength
    · intro hlength
      refine ⟨hintact, ?_, h.ioErrors⟩
      show (bodyBytes (t.frames ++ rest)).length = u.fileSize
      rw [hsource]
      exact hlength
  rw [hanswer, hverdict, hcomplete]
  show _ ∧ (u.request []).hashMatches toHex (bodyBytes (t.frames ++ rest)) = true ↔ _
  rw [hsource]

end Ends

/-- **Every upload ends**. It takes a bounded number of steps; and where no task can go on by
itself, the reader, the client, the handler and the writer are done. If nothing failed on the
way, the sender is told that the upload was successful exactly if the file has the size that was
announced, and the hash. -/
theorem upload_ends (toHex : Bytes → String) (u : Setup) {es : List Event} {t : State}
    (hexec : exec (step toHex u) u.init es = some t) :
    es.length ≤ 7 * u.source.length + 10 ∧
    ((∀ e : Event, e.own = true → step toHex u t e = none) →
      t.reader = .ended ∧ t.result.isSome = true ∧
      (∃ written, t.save.writer = .ended written) ∧
      (t.save.handler = .dropped ∨ ∃ result, t.save.handler = .done result) ∧
      ((∀ e ∈ es, e.sound = true) → (t.result = some (.ok ()) ↔
        u.source.length = u.fileSize ∧ (u.request []).hashMatches toHex u.source = true))) := by
  have hinv := inv_of_run (reach_of_exec hexec)
  refine ⟨?_, fun hstuck => ?_⟩
  · have hbound : es.length ≤ u.init.work u :=
      length_le_of_own (P := fun _ => true) (fun _ _ _ _ _ => trivial)
        (fun _ _ _ _ _ hstep => step_work hstep) trivial (fun _ _ => rfl) hexec
    refine Nat.le_trans hbound ?_
    unfold State.work Setup.init
    cases u.content with
    | stream | path | fd =>
        show 7 * u.source.length + _ + 0 + 4 * 0 + 5 + 1 + 1 + 1 ≤ _
        dsimp only [FileContent.reader, Reader.work]
        omega
  · obtain ⟨hreader, hresult, hwriter, hhandler⟩ := rests_of_stuck hinv hstuck
    refine ⟨hreader, hresult, hwriter, hhandler, fun hsound => ?_⟩
    have hguard : Guarded (step toHex u) (fun _ e => e.sound = true) u.init es :=
      guarded_of_forall (fun _ _ he => he) hsound u.init
    have hrun := run_of_exec hexec hguard
    have hboth : Sound u t ∧ Inv toHex u t :=
      hrun.invariant (I := fun t => Sound u t ∧ Inv toHex u t) ⟨sound_init, inv_init⟩
        fun _ _ _ h hs hst => ⟨h.1.step h.2 hs hst, h.2.step hst⟩
    exact hboth.1.answer hinv hresult

theorem upload_ends_threeBytes : ∃ t,
    exec (step Sample.toHex threeBytes) threeBytes.init threeBytesSent = some t ∧
      threeBytesSent.length ≤ 31 ∧
      ((∀ e : Event, e.own = true → step Sample.toHex threeBytes t e = none) →
        t.reader = .ended ∧ t.result = some (.ok ())) := by
  obtain ⟨t, hexec, -⟩ := exists_of_exec_any (step Sample.toHex threeBytes) threeBytes.init
    threeBytesSent (fun _ => true) (by decide)
  obtain ⟨hlength, hends⟩ := upload_ends Sample.toHex threeBytes hexec
  refine ⟨t, hexec, hlength, fun hstuck => ?_⟩
  obtain ⟨hreader, -, -, -, hanswer⟩ := hends hstuck
  exact ⟨hreader, (hanswer (by decide)).mpr (by decide)⟩

end Transmission

end FireBoxTransfer

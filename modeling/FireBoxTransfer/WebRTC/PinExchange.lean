import FireBoxTransfer.Framework.Duplex
import FireBoxTransfer.WebRTC.Messages

/-!
# The PIN exchange

One side verifies, the other one sends the PINs its user enters. The receiver of the
files answers in single texts and has announced with its token that it asks for a PIN;
the sender answers in chunks, announces it with a first answer, and its `Ok` carries the
list of files. The verifier begins with an empty PIN.
-/

namespace FireBoxTransfer.WebRTC

open Json Runs Duplex

/-! ## §1  The two sides -/

structure PinConfig where
  pin : String
  maxTries : UInt8
deriving DecidableEq

inductive PinFailure where
  | tooManyRequests
  | expectedString
  | unparsable
  /-- `Unexpected TooManyAttempts response`. -/
  | unexpected
deriving DecidableEq

/-- The places of `verify_pin` and of its caller up to the `Ok` it sends. -/
inductive Verifier where
  | sending (messages : List DataChannelMessage) (next : Verifier)
  | receiving (pinTry : UInt8)
  | ended (result : Except PinFailure Unit)
deriving DecidableEq

/-- The places of `handle_pin`, with the number of PINs that have been entered. -/
inductive Handler (T : Type*) where
  /-- In `accept_offer`, before it is known that a PIN is asked for. -/
  | notified (buffer : Bytes)
  | asking (entered : ℕ)
  | waiting (entered : ℕ) (buffer : Bytes)
  | ended (result : Except PinFailure T)
deriving DecidableEq

/-- A PIN phase: what the verifier expects and what the other side enters. -/
structure PinPhase (T : Type*) where
  config : PinConfig
  pins : ℕ → String
  /-- The sender of the files verifies, and not the receiver. -/
  bySender : Bool
  result : T
  pinJson : Serde RTCPinMessage
  responseJson : Serde (PinResponse T)

namespace PinPhase

variable {T : Type*} (P : PinPhase T)

/-- `send_result`, and the `Ok` of its caller. -/
def sendResult (response : PinResponse T) : List DataChannelMessage :=
  if P.bySender then stringInChunks (P.responseJson.write response)
  else [sendText (P.responseJson.write response)]

/-- The head of the loop of `verify_pin`. -/
def verifyLoop (remotePin : String) (pinTry : UInt8) (sendInitialNotice : Bool) : Verifier :=
  if remotePin = P.config.pin then .sending (P.sendResult (.ok P.result)) (.ended (.ok ()))
  else if pinTry ≥ P.config.maxTries then
    .sending (P.sendResult .tooManyAttempts) (.ended (.error .tooManyRequests))
  else if sendInitialNotice ∨ pinTry > 0 then
    .sending (P.sendResult .pinRequired) (.receiving pinTry)
  else .receiving pinTry

def verifyPin : Verifier → Action Verifier DataChannelMessage DataChannelMessage
  | .sending (message :: messages) next => .send message (.sending messages next)
  | .sending [] next => .silent next
  | .receiving pinTry =>
      .receive fun msg =>
        match P.pinJson.read msg.data with
        | some pinReq => P.verifyLoop pinReq.pin (pinTry + 1) false
        | none => .ended (.error .unparsable)
  | .ended _ => .ended

/-- What `handle_pin` makes of a response. -/
def handleResponse (entered : ℕ) (data : Bytes) : Handler T :=
  match P.responseJson.read data with
  | some (.ok result) => .ended (.ok result)
  | some .pinRequired => .asking entered
  | some .tooManyAttempts => .ended (.error .tooManyRequests)
  | none => .ended (.error .unparsable)

/-- What `accept_offer` makes of the sender's first message. -/
def handleNotice (data : Bytes) : Handler T :=
  match P.responseJson.read data with
  | some (.ok result) => .ended (.ok result)
  | some .pinRequired => .asking 0
  | some .tooManyAttempts => .ended (.error .unexpected)
  | none => .ended (.error .unparsable)

def handlePin : Handler T → Action (Handler T) DataChannelMessage DataChannelMessage
  | .notified buffer =>
      .receive fun msg =>
        if msg.isString then P.handleNotice buffer else .notified (buffer ++ msg.data)
  | .asking entered =>
      .send (sendText (P.pinJson.write ⟨P.pins entered⟩)) (.waiting (entered + 1) [])
  | .waiting entered buffer =>
      .receive fun msg =>
        if P.bySender then
          if msg.isString then P.handleResponse entered buffer
          else .waiting entered (buffer ++ msg.data)
        else if msg.isString then P.handleResponse entered msg.data
        else .ended (.error .expectedString)
  | .ended _ => .ended

/-! ## §2  The exchange -/

def step : System Verifier (Handler T) DataChannelMessage DataChannelMessage → Side →
    Option (System Verifier (Handler T) DataChannelMessage DataChannelMessage) :=
  Duplex.step P.verifyPin P.handlePin

def init : System Verifier (Handler T) DataChannelMessage DataChannelMessage where
  left := P.verifyLoop "" 0 P.bySender
  right := if P.bySender then .notified [] else .asking 0
  toLeft := []
  toRight := []

/-- One of the PINs that may be tried is right. -/
def Correct : Prop := ∃ i < P.config.maxTries.toNat, P.pins i = P.config.pin

/-- Every schedule ends in one state, where nothing is unread and both sides have the
same result: the right one. -/
def Agrees : Prop :=
  ∃ t, Settles P.step P.init t ∧ t.toLeft = [] ∧ t.toRight = [] ∧
    (P.Correct → t.left = .ended (.ok ()) ∧ t.right = .ended (.ok P.result)) ∧
    (¬ P.Correct → t.left = .ended (.error .tooManyRequests) ∧
      t.right = .ended (.error .tooManyRequests))

/-! ## §3  One answer -/

variable {P} {verifier next : Verifier} {handler : Handler T}
  {toVerifier toHandler messages : List DataChannelMessage}

theorem reach_left {s t : System Verifier (Handler T) DataChannelMessage DataChannelMessage}
    (h : P.step s .left = some t) : Reach P.step s t := .single trivial h

theorem reach_right {s t : System Verifier (Handler T) DataChannelMessage DataChannelMessage}
    (h : P.step s .right = some t) : Reach P.step s t := .single trivial h

theorem reach_sent :
    Reach P.step ⟨.sending messages next, handler, toVerifier, toHandler⟩
      ⟨next, handler, toVerifier, toHandler ++ messages⟩ := by
  induction messages generalizing toHandler with
  | nil =>
      rw [List.append_nil]
      exact reach_left rfl
  | cons message messages ih =>
      have hfirst : Reach P.step
          ⟨.sending (message :: messages) next, handler, toVerifier, toHandler⟩
          ⟨.sending messages next, handler, toVerifier, toHandler ++ [message]⟩ := reach_left rfl
      refine hfirst.trans ?_
      rw [List.append_cons toHandler message messages]
      exact ih

/-- A side that collects chunks up to a text has what was sent in chunks. -/
theorem reach_collected (verifier : Verifier) (collecting collected : Bytes → Handler T)
    (chunks : List Bytes) (buffer : Bytes)
    (haction : ∀ buffer, P.handlePin (collecting buffer) = .receive fun msg =>
      if msg.isString then collected buffer else collecting (buffer ++ msg.data)) :
    Reach P.step
      ⟨verifier, collecting buffer, [], chunks.map sendBinary ++ [delimiter]⟩
      ⟨verifier, collected (buffer ++ chunks.flatten), [], []⟩ := by
  induction chunks generalizing buffer with
  | nil =>
      refine reach_right ?_
      simp only [step, Duplex.step, haction, List.map_nil, List.nil_append, List.flatten_nil,
        List.append_nil]
      rfl
  | cons chunk chunks ih =>
      have hfirst : Reach P.step
          ⟨verifier, collecting buffer, [],
            (chunk :: chunks).map sendBinary ++ [delimiter]⟩
          ⟨verifier, collecting (buffer ++ chunk), [],
            chunks.map sendBinary ++ [delimiter]⟩ := by
        refine reach_right ?_
        simp only [step, Duplex.step, haction, List.map_cons, List.cons_append]
        rfl
      refine hfirst.trans ?_
      rw [List.flatten_cons, ← List.append_assoc]
      exact ih _

/-- **An answer arrives as it was sent.** -/
theorem reach_answered (next : Verifier) (response : PinResponse T) (entered : ℕ) :
    Reach P.step ⟨.sending (P.sendResult response) next, .waiting entered [], [], []⟩
      ⟨next, P.handleResponse entered (P.responseJson.write response), [], []⟩ := by
  refine reach_sent.trans ?_
  rw [List.nil_append]
  unfold sendResult
  split_ifs with hsender
  · have hcollected :=
      reach_collected (P := P) next (.waiting entered) (P.handleResponse entered)
        (processInChunks [P.responseJson.write response]) []
        fun buffer => by simp only [handlePin, hsender, if_true]
    rw [flatten_processInChunks, List.flatten_singleton, List.nil_append] at hcollected
    exact hcollected
  · refine reach_right ?_
    simp only [step, Duplex.step, handlePin, hsender]
    rfl

/-! ## §4  One round -/

theorem reach_tried (pinTry : UInt8) (entered : ℕ) :
    Reach P.step ⟨.receiving pinTry, .asking entered, [], []⟩
      ⟨P.verifyLoop (P.pins entered) (pinTry + 1) false, .waiting (entered + 1) [], [], []⟩ := by
  have hasked : Reach P.step ⟨.receiving pinTry, .asking entered, [], []⟩
      ⟨.receiving pinTry, .waiting (entered + 1) [],
        [sendText (P.pinJson.write ⟨P.pins entered⟩)], []⟩ := reach_right rfl
  refine hasked.trans (reach_left ?_)
  simp only [step, Duplex.step, verifyPin, sendText, P.pinJson.read_write]

theorem toNat_succ {pinTry : UInt8} (h : pinTry < P.config.maxTries) :
    (pinTry + 1).toNat = pinTry.toNat + 1 := by
  have hlt := UInt8.lt_iff_toNat_lt.mp h
  have hmax := P.config.maxTries.toNat_lt
  rw [UInt8.toNat_add, UInt8.toNat_one]
  omega

/-- The state in which the next PIN is entered, after as many as were tried. -/
def awaited (_ : PinPhase T) (pinTry : UInt8) :
    System Verifier (Handler T) DataChannelMessage DataChannelMessage :=
  ⟨.receiving pinTry, .asking pinTry.toNat, [], []⟩

theorem round_right {pinTry : UInt8} (hright : P.pins pinTry.toNat = P.config.pin) :
    Reach P.step (P.awaited pinTry) ⟨.ended (.ok ()), .ended (.ok P.result), [], []⟩ := by
  refine (reach_tried pinTry _).trans ?_
  rw [verifyLoop, if_pos hright]
  have hanswered := reach_answered (P := P) (.ended (.ok ())) (.ok P.result)
    (pinTry.toNat + 1)
  rwa [handleResponse, P.responseJson.read_write] at hanswered

theorem round_last {pinTry : UInt8} (hwrong : P.pins pinTry.toNat ≠ P.config.pin)
    (hlast : P.config.maxTries ≤ pinTry + 1) :
    Reach P.step (P.awaited pinTry)
      ⟨.ended (.error .tooManyRequests), .ended (.error .tooManyRequests), [], []⟩ := by
  refine (reach_tried pinTry _).trans ?_
  rw [verifyLoop, if_neg hwrong, if_pos hlast]
  have hanswered := reach_answered (P := P) (.ended (.error .tooManyRequests))
    .tooManyAttempts (pinTry.toNat + 1)
  rwa [handleResponse, P.responseJson.read_write] at hanswered

theorem round_wrong {pinTry : UInt8} (hlt : pinTry < P.config.maxTries)
    (hwrong : P.pins pinTry.toNat ≠ P.config.pin) (hmore : ¬ P.config.maxTries ≤ pinTry + 1) :
    Reach P.step (P.awaited pinTry) (P.awaited (pinTry + 1)) := by
  refine (reach_tried pinTry _).trans ?_
  have hpos : pinTry + 1 > 0 := by
    rw [gt_iff_lt, UInt8.lt_iff_toNat_lt, toNat_succ hlt]
    exact Nat.succ_pos _
  rw [verifyLoop, if_neg hwrong, if_neg hmore, if_pos (.inr hpos)]
  have hanswered := reach_answered (P := P) (.receiving (pinTry + 1)) .pinRequired
    (pinTry.toNat + 1)
  rw [handleResponse, P.responseJson.read_write] at hanswered
  rwa [awaited, toNat_succ hlt]

/-! ## §5  Every number of tries -/

/-- The result of both sides. -/
def finished (_ : PinPhase T) (verified : Except PinFailure Unit) (handled : Except PinFailure T)
    (unread : List DataChannelMessage) :
    System Verifier (Handler T) DataChannelMessage DataChannelMessage :=
  ⟨.ended verified, .ended handled, unread, []⟩

theorem atRest_finished (verified : Except PinFailure Unit) (handled : Except PinFailure T)
    (unread : List DataChannelMessage) :
    AtRest P.step (P.finished verified handled unread) := by
  intro side
  cases side <;> rfl

/-- The rounds that are left: the induction is on the tries that are left. -/
theorem reach_rounds {pinTry : UInt8} (hlt : pinTry < P.config.maxTries) :
    ((∃ i, pinTry.toNat ≤ i ∧ i < P.config.maxTries.toNat ∧ P.pins i = P.config.pin) →
      Reach P.step (P.awaited pinTry) (P.finished (.ok ()) (.ok P.result) [])) ∧
    ((¬ ∃ i, pinTry.toNat ≤ i ∧ i < P.config.maxTries.toNat ∧ P.pins i = P.config.pin) →
      Reach P.step (P.awaited pinTry)
        (P.finished (.error .tooManyRequests) (.error .tooManyRequests) [])) := by
  have hnat := UInt8.lt_iff_toNat_lt.mp hlt
  obtain ⟨left, hleft⟩ : ∃ left, P.config.maxTries.toNat - pinTry.toNat = left := ⟨_, rfl⟩
  induction left generalizing pinTry with
  | zero => omega
  | succ left ih =>
      have hfewer : P.config.maxTries.toNat - (pinTry.toNat + 1) = left := by omega
      by_cases hright : P.pins pinTry.toNat = P.config.pin
      · refine ⟨fun _ => round_right hright, fun hnone => ?_⟩
        exact absurd ⟨_, Nat.le_refl _, hnat, hright⟩ hnone
      · -- a right PIN can only be a later one
        have hlater : (∃ i, pinTry.toNat ≤ i ∧ i < P.config.maxTries.toNat ∧
            P.pins i = P.config.pin) ↔
            ∃ i, (pinTry + 1).toNat ≤ i ∧ i < P.config.maxTries.toNat ∧
              P.pins i = P.config.pin := by
          rw [toNat_succ hlt]
          refine exists_congr fun i => ?_
          constructor
          · rintro ⟨hle, hmax, hi⟩
            have hne : pinTry.toNat ≠ i := fun h => hright (h ▸ hi)
            exact ⟨Nat.lt_of_le_of_ne hle hne, hmax, hi⟩
          · rintro ⟨hle, hmax, hi⟩
            exact ⟨Nat.le_of_succ_le hle, hmax, hi⟩
        rw [hlater]
        by_cases hlast : P.config.maxTries ≤ pinTry + 1
        · refine ⟨?_, fun _ => round_last hright hlast⟩
          rintro ⟨i, hle, hmax, -⟩
          have := UInt8.le_iff_toNat_le.mp hlast
          omega
        · have hmore : pinTry + 1 < P.config.maxTries := UInt8.not_le.mp hlast
          have hmoreNat := UInt8.lt_iff_toNat_lt.mp hmore
          have hrest := ih hmore hmoreNat (by rw [toNat_succ hlt, hfewer])
          have hround := round_wrong hlt hright hlast
          exact ⟨fun h => hround.trans (hrest.1 h), fun h => hround.trans (hrest.2 h)⟩

/-- With a PIN that is not empty both sides come to the first round. -/
theorem reach_first (hpin : P.config.pin ≠ "") (htries : 1 ≤ P.config.maxTries) :
    Reach P.step P.init (P.awaited 0) := by
  have hmore : ¬ (0 : UInt8) ≥ P.config.maxTries := by
    rw [ge_iff_le, UInt8.not_le]
    exact UInt8.lt_of_lt_of_le (by decide) htries
  unfold init verifyLoop
  rw [if_neg (Ne.symm hpin), if_neg hmore]
  cases hsender : P.bySender with
  | false => exact .refl
  | true =>
      rw [if_pos (.inl rfl), if_pos rfl]
      refine reach_sent.trans ?_
      rw [List.nil_append, sendResult, hsender, if_pos rfl]
      have hcollected : Reach P.step _ _ :=
        reach_collected (.receiving 0) .notified P.handleNotice
          (processInChunks [P.responseJson.write .pinRequired]) [] fun buffer => rfl
      rw [flatten_processInChunks, List.flatten_singleton, List.nil_append, handleNotice,
        P.responseJson.read_write] at hcollected
      exact hcollected

/-! ## §6  An empty PIN -/

/-- An empty PIN is right before one is entered: the sender of the files asks for none. -/
theorem reach_unasked (hpin : P.config.pin = "") (hsender : P.bySender = true) :
    Reach P.step P.init (P.finished (.ok ()) (.ok P.result) []) := by
  unfold init verifyLoop
  rw [if_pos hpin.symm, if_pos hsender]
  refine reach_sent.trans ?_
  rw [List.nil_append, sendResult, if_pos hsender]
  have hcollected : Reach P.step _ _ :=
    reach_collected (.ended (.ok ())) .notified P.handleNotice
      (processInChunks [P.responseJson.write (.ok P.result)]) [] fun buffer => rfl
  rw [flatten_processInChunks, List.flatten_singleton, List.nil_append, handleNotice,
    P.responseJson.read_write] at hcollected
  exact hcollected

/-- The receiver has asked for a PIN already, and does not read it. -/
theorem reach_unread (hpin : P.config.pin = "") (hsender : P.bySender = false) :
    Reach P.step P.init
      (P.finished (.ok ()) (.ok P.result) [sendText (P.pinJson.write ⟨P.pins 0⟩)]) := by
  unfold init verifyLoop
  rw [if_pos hpin.symm, hsender, if_neg Bool.false_ne_true]
  have hasked : Reach P.step
      ⟨.sending (P.sendResult (.ok P.result)) (.ended (.ok ())), .asking 0, [], []⟩
      ⟨.sending (P.sendResult (.ok P.result)) (.ended (.ok ())), .waiting 1 [],
        [sendText (P.pinJson.write ⟨P.pins 0⟩)], []⟩ := reach_right rfl
  refine (hasked.trans reach_sent).trans (reach_right ?_)
  rw [List.nil_append, sendResult, hsender, if_neg Bool.false_ne_true]
  simp only [step, Duplex.step, handlePin, hsender, sendText, handleResponse,
    P.responseJson.read_write]
  rfl

theorem settles {verified : Except PinFailure Unit} {handled : Except PinFailure T}
    {unread : List DataChannelMessage}
    (h : Reach P.step P.init (P.finished verified handled unread)) :
    Settles P.step P.init (P.finished verified handled unread) :=
  (independent P.verifyPin P.handlePin).settles h (atRest_finished _ _ _)

/-- **The two sides agree** in every schedule, whichever of them asks for a PIN, unless
the PIN is empty. -/
theorem pin_exchange_agrees_iff (P : PinPhase T) (htries : 1 ≤ P.config.maxTries) :
    P.Agrees ↔ P.config.pin ≠ "" ∨ (P.bySender = true ∧ P.Correct) := by
  constructor
  · rintro ⟨t, ht, hleft, -, -, hwrong⟩
    by_cases hpin : P.config.pin = ""
    · cases hsender : P.bySender with
      | true =>
          have hsame := ht.unique (settles (reach_unasked hpin hsender))
          refine .inr ⟨rfl, ?_⟩
          by_contra hincorrect
          have hended := (hwrong hincorrect).1
          rw [hsame] at hended
          cases hended
      | false =>
          have hsame := ht.unique (settles (reach_unread hpin hsender))
          rw [hsame] at hleft
          cases hleft
    · exact .inl hpin
  · intro hcase
    by_cases hpin : P.config.pin = ""
    · obtain ⟨hsender, hcorrect⟩ := hcase.resolve_left (absurd hpin)
      exact ⟨_, settles (reach_unasked hpin hsender), rfl, rfl, fun _ => ⟨rfl, rfl⟩,
        fun hincorrect => absurd hcorrect hincorrect⟩
    · have hlt : (0 : UInt8) < P.config.maxTries := UInt8.lt_of_lt_of_le (by decide) htries
      have hrounds := reach_rounds hlt
      have hiff : (∃ i, (0 : UInt8).toNat ≤ i ∧ i < P.config.maxTries.toNat ∧
          P.pins i = P.config.pin) ↔ P.Correct :=
        exists_congr fun i => and_iff_right (Nat.zero_le i)
      rw [hiff] at hrounds
      have hfirst := reach_first hpin htries
      by_cases hcorrect : P.Correct
      · exact ⟨_, settles (hfirst.trans (hrounds.1 hcorrect)), rfl, rfl, fun _ => ⟨rfl, rfl⟩,
          fun hincorrect => absurd hcorrect hincorrect⟩
      · exact ⟨_, settles (hfirst.trans (hrounds.2 hcorrect)), rfl, rfl,
          fun hright => absurd hright hcorrect, fun _ => ⟨rfl, rfl⟩⟩

/-- The receiver asks for a PIN; one is entered and then another one. -/
def entering (pin first second : String) : PinPhase Unit where
  config := ⟨pin, 3⟩
  pins i := if i = 0 then first else second
  bySender := false
  result := ()
  pinJson := pinMessageJson
  responseJson := pinReceivingResponseJson

theorem pin_exchange_agrees_second : (entering "1234" "4321" "1234").Agrees :=
  (pin_exchange_agrees_iff (entering "1234" "4321" "1234") (by decide)).mpr (.inl (by decide))

/-- Nothing is expected and the PIN that was asked for stays in the channel. -/
theorem empty_pin_unread : ¬ (entering "" "1234" "").Agrees := by
  rintro ⟨t, ht, hleft, -⟩
  have hsame := ht.unique (settles (reach_unread rfl rfl))
  rw [hsame] at hleft
  cases hleft

end PinPhase

end FireBoxTransfer.WebRTC

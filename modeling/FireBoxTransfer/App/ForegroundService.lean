import FireBoxTransfer.App.SendSession
import FireBoxTransfer.Framework.FutureQueue
import FireBoxTransfer.Framework.Progress

/-!
# The service behind the notification

While a transfer runs, a foreground service of the platform keeps the process alive and shows one
notification for all transfers. It is started with the first transfer and stopped with the last
one. What is asked of the platform takes time and may be refused; a queue has it done one after
the other.
-/

namespace FireBoxTransfer

open Runs

namespace Foreground

/-! ## §1  The service and the platform -/

/-- What the notification says. -/
structure Content where
  title : String
  text : String
deriving DecidableEq

inductive ServiceAction where
  | start (content : Content)
  | update (content : Content)
  | stop
deriving DecidableEq

/-- What the action that runs waits for. -/
inductive Await where
  /-- It has returned. -/
  | returned
  /-- The permission to show notifications. -/
  | permission (content : Content)
  | startService (content : Content)
  | updateService (content : Content)
  | stopService
deriving DecidableEq

/-- `lastTitle` and `lastText` are set together. -/
structure ForegroundService where
  queue : FutureQueue ServiceAction
  await : Await
  initialized : Bool
  running : Bool
  lastUpdate : Option ℤ
  lastContent : Option Content
deriving DecidableEq

namespace ForegroundService

def init : ForegroundService := ⟨.empty, .returned, false, false, none, none⟩

/-- In microseconds. -/
def updateInterval : ℤ := 500000

/-- The first part of the action that runs now. -/
def enter (s : ForegroundService) : ForegroundService :=
  match s.queue.running with
  | none => { s with await := .returned }
  | some (.start content) =>
      if s.running then { s with await := .returned } else { s with await := .permission content }
  | some (.update content) =>
      if s.running then { s with await := .updateService content }
      else { s with await := .returned }
  | some .stop =>
      if s.running then { s with running := false, await := .stopService }
      else { s with await := .returned }

def add (s : ForegroundService) (a : ServiceAction) : ForegroundService :=
  match s.queue.running with
  | some _ => { s with queue := s.queue.add a }
  | none => { s with queue := s.queue.add a }.enter

/-- The action that runs is over. -/
def finish (s : ForegroundService) : ForegroundService :=
  { s with queue := s.queue.drain }.enter

def start (s : ForegroundService) (content : Content) : ForegroundService :=
  { s with lastUpdate := none, lastContent := none }.add (.start content)

def throttled (s : ForegroundService) (now : ℤ) : Bool :=
  s.lastUpdate.any fun last => now - last < updateInterval

def updateNotification (s : ForegroundService) (content : Content) (now : ℤ) :
    ForegroundService :=
  if s.throttled now then s
  else if s.lastContent = some content then { s with lastUpdate := some now }
  else { s with lastUpdate := some now, lastContent := some content }.add (.update content)

def stop (s : ForegroundService) : ForegroundService :=
  { s with lastUpdate := none, lastContent := none }.add .stop

end ForegroundService

/-- How the platform answers. -/
inductive Answer where
  | success
  | failure
  | throws
deriving DecidableEq

def Answer.ok : Answer → Bool
  | .success => true
  | .failure | .throws => false

/-- What was asked of the platform. -/
inductive PlatformCall where
  | init
  | startService (content : Content) (answer : Answer)
  | updateService (content : Content) (answer : Answer)
  | stopService (answer : Answer)
deriving DecidableEq

/-- The notification of the service, while the platform has it, and the calls there were. -/
structure Platform where
  shown : Option Content
  calls : List PlatformCall
deriving DecidableEq

/-- Whether every call was answered as it was asked. -/
def PlatformCall.ok : PlatformCall → Bool
  | .init => true
  | .startService _ answer | .updateService _ answer | .stopService answer => answer.ok

/-! ## §2  Transfers -/

structure Transfer where
  receiving : Bool
  currentBytes : ℕ
  totalBytes : ℕ
  speedInBytes : Option ℕ
deriving DecidableEq

/-- The bytes of all transfers, and their speed as far as it is known. -/
def combined (transfers : List Transfer) : ℕ × ℕ × Option ℕ :=
  transfers.foldl (fun (currentBytes, totalBytes, speedInBytes) transfer =>
    (currentBytes + transfer.currentBytes, totalBytes + transfer.totalBytes,
      match transfer.speedInBytes with
      | none => speedInBytes
      | some speed => some (speedInBytes.getD 0 + speed))) (0, 0, none)

/-- The translated titles, and how bytes and speed are written. -/
structure NotificationStrings where
  titleReceiving : String
  titleSending : String
  text : ℕ × ℕ × Option ℕ → String

def NotificationStrings.title (strings : NotificationStrings) (transfers : List Transfer) :
    String :=
  let receiving := transfers.any Transfer.receiving
  let sending := transfers.any fun transfer => !transfer.receiving
  if receiving && sending then strings.titleReceiving ++ " · " ++ strings.titleSending
  else if receiving then strings.titleReceiving
  else strings.titleSending

def NotificationStrings.content (strings : NotificationStrings)
    (transfers : AssocMap String Transfer) : Content :=
  ⟨strings.title transfers.values, strings.text (combined transfers.values)⟩

def minBytesForSpeed : ℕ := 500 * 1024

/-- Bytes in a second; the times are in milliseconds. -/
def getFileSpeed (start stop : ℤ) (bytes : ℕ) : ℕ := (bytes * 1000 / (stop - start)).toNat

def speed (currentBytes : ℕ) (startTime endTime : Option ℤ) (now : ℤ) : Option ℕ :=
  match startTime with
  | none => none
  | some start =>
      if currentBytes < minBytesForSpeed then none
      else
        let stop := endTime.getD (now / 1000)
        if stop ≤ start then none else some (getFileSpeed start stop currentBytes)

/-- The notification as a whole. `told` is what it should say by now; it is told nothing while
there is no transfer. -/
structure Notification where
  transfers : AssocMap String Transfer
  service : ForegroundService
  platform : Platform
  told : Option Content

namespace Notification

def init : Notification := ⟨.empty, .init, ⟨none, []⟩, none⟩

variable (strings : NotificationStrings)

def contains (n : Notification) (sessionId : String) : Bool :=
  (n.transfers.get? sessionId).isSome

def start (n : Notification) (sessionId : String) (receiving : Bool) : Notification :=
  if n.contains sessionId then n
  else
    let transfers := n.transfers.insert sessionId ⟨receiving, 0, 0, none⟩
    if n.transfers.isEmpty then
      let content := strings.content transfers
      { n with
        transfers := transfers
        service := n.service.start content
        told := some content }
    else { n with transfers := transfers }

/-- `ForegroundService.updateNotification`, with the title and the text of the moment. -/
def refresh (n : Notification) (now : ℤ) : Notification :=
  let content := strings.content n.transfers
  { n with
    service := n.service.updateNotification content now
    told := if n.service.throttled now then n.told else some content }

def update (n : Notification) (sessionId : String) (currentBytes totalBytes : ℕ)
    (startTime endTime : Option ℤ) (now : ℤ) : Notification :=
  if n.contains sessionId then
    refresh strings { n with
      transfers := n.transfers.modify sessionId fun transfer =>
        { transfer with
          currentBytes := currentBytes
          totalBytes := totalBytes
          speedInBytes := speed currentBytes startTime endTime now } } now
  else n

def stop (n : Notification) (sessionId : String) (now : ℤ) : Notification :=
  if n.contains sessionId then
    let n := { n with transfers := n.transfers.filter fun id _ => id ≠ sessionId }
    if n.transfers.isEmpty then { n with service := n.service.stop, told := none }
    else refresh strings n now
  else n

/-! ## §3  One step -/

/-- The permission was given, or not; the service is initialised once, and asked to start. -/
def granted (n : Notification) (content : Content) : Notification :=
  { n with
    service := { n.service with initialized := true, await := .startService content }
    platform := { n.platform with
      calls := n.platform.calls ++ if n.service.initialized then [] else [.init] } }

/-- The platform answers the action that runs. -/
def answered (n : Notification) (answer : Answer) : Option Notification :=
  match n.service.await with
  | .startService content => some { n with
      service := { n.service with running := answer.ok }.finish
      platform := ⟨if answer.ok then some content else n.platform.shown,
        n.platform.calls ++ [.startService content answer]⟩ }
  | .updateService content => some { n with
      service := n.service.finish
      platform := ⟨if answer.ok then n.platform.shown.map fun _ => content else n.platform.shown,
        n.platform.calls ++ [.updateService content answer]⟩ }
  | .stopService => some { n with
      service := n.service.finish
      platform := ⟨if answer.ok then none else n.platform.shown,
        n.platform.calls ++ [.stopService answer]⟩ }
  | .returned | .permission _ => none

inductive Event where
  | start (sessionId : String) (receiving : Bool)
  | update (sessionId : String) (currentBytes totalBytes : ℕ) (startTime endTime : Option ℤ)
      (now : ℤ)
  | stop (sessionId : String) (now : ℤ)
  /-- An action that has returned makes place for the next one. -/
  | resumed
  | granted
  | answered (answer : Answer)
deriving DecidableEq

/-- The platform and the queue go on only while an action runs. -/
def step (n : Notification) : Event → Option Notification
  | .start sessionId receiving => some (n.start strings sessionId receiving)
  | .update sessionId currentBytes totalBytes startTime endTime now =>
      some (n.update strings sessionId currentBytes totalBytes startTime endTime now)
  | .stop sessionId now => some (n.stop strings sessionId now)
  | .resumed =>
      match n.service.queue.running, n.service.await with
      | some _, .returned => some { n with service := n.service.finish }
      | _, _ => none
  | .granted =>
      match n.service.queue.running, n.service.await with
      | some _, .permission content => some (n.granted content)
      | _, _ => none
  | .answered answer =>
      match n.service.queue.running with
      | some _ => n.answered answer
      | none => none

end Notification

/-! ## §4  What is asked of the platform -/

/-- The service of the platform; `left` is a service that it has refused to stop. -/
inductive Service where
  | off
  | on
  | left
deriving DecidableEq

/-- The service is initialised once and before it is started, started only while it does not run
or was not stopped when this was asked for, and updated and stopped only while it runs: what is
known after a call, of both. -/
def bracket : Bool × Service → PlatformCall → Option (Bool × Service)
  | (false, service), .init => some (true, service)
  | (true, .off), .startService _ answer => some (true, if answer.ok then .on else .off)
  | (true, .left), .startService _ answer => some (true, if answer.ok then .on else .left)
  | (initialized, .on), .updateService _ _ => some (initialized, .on)
  | (initialized, .on), .stopService answer => some (initialized, if answer.ok then .off else .left)
  | _, _ => none

/-- The calls are in order; `on` says whether the platform runs the service as it was asked to,
and it shows a notification exactly while it runs one. -/
def Bracketed (calls : List PlatformCall) (initialized on : Bool) (shown : Option Content) :
    Prop :=
  ∃ service, calls.foldlM bracket (false, .off) = some (initialized, service) ∧
    on = decide (service = .on) ∧ shown.isSome = decide (service ≠ .off)

/-- What an action asks for. -/
def ServiceAction.control : ServiceAction → Option Bool
  | .start _ => some true
  | .update _ => none
  | .stop => some false

/-- What the last start or stop among some actions asks for. -/
def lastControl : List ServiceAction → Option Bool
  | [] => none
  | a :: actions => (lastControl actions).or a.control

/-- The platform did not start the service when it was asked last. -/
def refused (calls : List PlatformCall) : Bool :=
  calls.foldl (fun refused call =>
    match call with
    | .startService _ answer => !answer.ok
    | .init | .updateService _ _ | .stopService _ => refused) false

/-- What an action that succeeds does to the notification that is shown. -/
def effect (shown : Option Content) : ServiceAction → Option Content
  | .start content => some (shown.getD content)
  | .update content => shown.map fun _ => content
  | .stop => none

def Await.actions : Await → List ServiceAction
  | .returned => []
  | .permission content | .startService content => [.start content]
  | .updateService content => [.update content]
  | .stopService => [.stop]

/-- What has still to be done. -/
def ForegroundService.pending (s : ForegroundService) : List ServiceAction :=
  match s.queue.running with
  | none => []
  | some _ => s.await.actions ++ s.queue.queue

/-- What holds while `actions` are still to be done; `on` says whether the platform runs the
service as it was asked to. -/
structure Orderly (n : Notification) (on : Bool) (actions : List ServiceAction) : Prop where
  calls : Bracketed n.platform.calls n.service.initialized on n.platform.shown
  control : ∀ b, lastControl actions = some b → b = !n.transfers.isEmpty
  quiet : lastControl actions = none →
    if n.transfers.isEmpty then n.service.running = false
    else n.service.running = true ∨ refused n.platform.calls = true
  told : n.told.isSome = !n.transfers.isEmpty
  last : ∀ content, n.service.lastContent = some content → n.told = some content
  shows : n.platform.calls.all PlatformCall.ok = true →
    actions.foldl effect n.platform.shown = n.told ∧ on = n.platform.shown.isSome

/-- What the action that runs waits for fits the flag. -/
structure Phase (s : ForegroundService) (on : Bool) : Prop where
  idle : s.queue.running = none → s.queue.queue = [] ∧ s.await = .returned
  on : on = (s.running || decide (s.await = .stopService))
  starting : ∀ content, s.await = .permission content ∨ s.await = .startService content →
    s.running = false
  initialized : ∀ content, s.await = .startService content → s.initialized = true
  updating : ∀ content, s.await = .updateService content → s.running = true
  stopping : s.await = .stopService → s.running = false

def Fine (n : Notification) : Prop :=
  ∃ on, Orderly n on n.service.pending ∧ Phase n.service on

section Orderly

variable {n : Notification} {on : Bool} {actions : List ServiceAction} {a : ServiceAction}
  {content : Content} {transfers : AssocMap String Transfer}

theorem lastControl_concat : lastControl (actions ++ [a]) = a.control.or (lastControl actions) := by
  induction actions with
  | nil =>
      show (none : Option Bool).or a.control = a.control.or none
      rw [Option.none_or, Option.or_none]
  | cons b actions ih =>
      rw [List.cons_append, lastControl, ih, lastControl, Option.or_assoc]

/-! ### What is added -/

theorem Orderly.start (h : Orderly n on actions) (hempty : n.transfers.isEmpty = true)
    (hfirst : transfers.isEmpty = false) (content : Content) (s : ForegroundService)
    (hs : s.initialized = n.service.initialized) (hlast : s.lastContent = none) :
    Orderly { n with transfers := transfers, service := s, told := some content } on
      (actions ++ [.start content]) where
  calls := by
    show Bracketed n.platform.calls s.initialized on n.platform.shown
    rw [hs]
    exact h.calls
  control b hb := by
    rw [lastControl_concat] at hb
    show b = !transfers.isEmpty
    rw [hfirst, ← Option.some.inj hb]
    rfl
  quiet hnone := by
    rw [lastControl_concat] at hnone
    cases hnone
  told := by
    show true = !transfers.isEmpty
    rw [hfirst]
    rfl
  last content hcontent := by cases hlast.symm.trans hcontent
  shows hok := by
    obtain ⟨hshows, hon⟩ := h.shows hok
    have htold : n.told = none := by
      have hsome := h.told
      rw [hempty] at hsome
      exact Option.isNone_iff_eq_none.mp (by simpa using hsome)
    refine ⟨?_, hon⟩
    show (actions ++ [ServiceAction.start content]).foldl effect n.platform.shown = some content
    rw [List.foldl_append, hshows, htold]
    rfl

theorem Orderly.stop (h : Orderly n on actions) (hempty : transfers.isEmpty = true)
    (s : ForegroundService) (hs : s.initialized = n.service.initialized)
    (hlast : s.lastContent = none) :
    Orderly { n with transfers := transfers, service := s, told := none } on
      (actions ++ [.stop]) where
  calls := by
    show Bracketed n.platform.calls s.initialized on n.platform.shown
    rw [hs]
    exact h.calls
  control b hb := by
    rw [lastControl_concat] at hb
    show b = !transfers.isEmpty
    rw [hempty, ← Option.some.inj hb]
    rfl
  quiet hnone := by
    rw [lastControl_concat] at hnone
    cases hnone
  told := by
    show false = !transfers.isEmpty
    rw [hempty]
    rfl
  last content hcontent := by cases hlast.symm.trans hcontent
  shows hok := by
    refine ⟨?_, (h.shows hok).2⟩
    show (actions ++ [ServiceAction.stop]).foldl effect n.platform.shown = none
    rw [List.foldl_append]
    rfl

/-- Other transfers, or others of them, while there are some. -/
theorem Orderly.among (h : Orderly n on actions) (hsome : n.transfers.isEmpty = false)
    (hmore : transfers.isEmpty = false) :
    Orderly { n with transfers := transfers } on actions where
  calls := h.calls
  control b hb := by
    show b = !transfers.isEmpty
    rw [h.control b hb, hsome, hmore]
  quiet hnone := by
    have hquiet := h.quiet hnone
    rw [hsome] at hquiet
    show if transfers.isEmpty then n.service.running = false else _
    rw [hmore]
    exact hquiet
  told := by
    show n.told.isSome = !transfers.isEmpty
    rw [h.told, hsome, hmore]
  last := h.last
  shows := h.shows

/-- Nothing else of the service counts. -/
theorem Orderly.service (h : Orderly n on actions) (s : ForegroundService)
    (hs : s.initialized = n.service.initialized) (hrunning : s.running = n.service.running)
    (hlast : s.lastContent = n.service.lastContent) :
    Orderly { n with service := s } on actions where
  calls := by
    show Bracketed n.platform.calls s.initialized on n.platform.shown
    rw [hs]
    exact h.calls
  control := h.control
  quiet hnone := by
    show if n.transfers.isEmpty then s.running = false else s.running = true ∨ _
    rw [hrunning]
    exact h.quiet hnone
  told := h.told
  last content hcontent := h.last content (hlast.symm.trans hcontent)
  shows := h.shows

theorem Orderly.update (h : Orderly n on actions) (hsome : n.transfers.isEmpty = false)
    (s : ForegroundService) (hs : s.initialized = n.service.initialized)
    (hrunning : s.running = n.service.running) (hlast : s.lastContent = some content) :
    Orderly { n with service := s, told := some content } on
      (actions ++ [.update content]) where
  calls := by
    show Bracketed n.platform.calls s.initialized on n.platform.shown
    rw [hs]
    exact h.calls
  control b hb := by
    rw [lastControl_concat] at hb
    exact h.control b hb
  quiet hnone := by
    rw [lastControl_concat] at hnone
    show if n.transfers.isEmpty then s.running = false else s.running = true ∨ _
    rw [hrunning]
    exact h.quiet hnone
  told := by
    show true = !n.transfers.isEmpty
    rw [hsome]
    rfl
  last _ hcontent := hlast.symm.trans hcontent
  shows hok := by
    obtain ⟨hshows, hon⟩ := h.shows hok
    refine ⟨?_, hon⟩
    obtain ⟨old, hold⟩ : ∃ old, n.told = some old := by
      have htold := h.told
      rw [hsome] at htold
      exact Option.isSome_iff_exists.mp htold
    show (actions ++ [ServiceAction.update content]).foldl effect n.platform.shown = some content
    rw [List.foldl_append, hshows, hold]
    rfl

/-! ### What is done -/

/-- An action that finds nothing to do is done. -/
theorem Orderly.drop (h : Orderly n n.service.running (a :: actions))
    (ha : a.control = none ∨ a.control = some n.service.running)
    (heffect : n.platform.calls.all PlatformCall.ok = true →
      effect n.platform.shown a = n.platform.shown) :
    Orderly n n.service.running actions where
  calls := h.calls
  control b hb := by
    refine h.control b ?_
    rw [lastControl, hb]
    rfl
  quiet hnone := by
    have hcons : lastControl (a :: actions) = a.control := by
      rw [lastControl, hnone, Option.none_or]
    rcases ha with ha | ha
    · exact h.quiet (hcons.trans ha)
    · have hcontrol := h.control _ (hcons.trans ha)
      cases hempty : n.transfers.isEmpty with
      | true =>
          rw [hempty] at hcontrol
          exact hcontrol
      | false =>
          rw [hempty] at hcontrol
          exact .inl hcontrol
  told := h.told
  last := h.last
  shows hok := by
    obtain ⟨hshows, hon⟩ := h.shows hok
    rw [List.foldl_cons, heffect hok] at hshows
    exact ⟨hshows, hon⟩

section Phase

variable {s : ForegroundService}

theorem phase_returned (hidle : s.queue.running = none → s.queue.queue = []) :
    Phase { s with await := .returned } s.running where
  idle hnone := ⟨hidle hnone, rfl⟩
  on := (Bool.or_false _).symm
  starting content hawait := by rcases hawait with hawait | hawait <;> cases hawait
  initialized content hawait := by cases hawait
  updating content hawait := by cases hawait
  stopping hawait := by cases hawait

theorem phase_permission (hbusy : s.queue.running ≠ none) (hrunning : s.running = false) :
    Phase { s with await := .permission content } s.running where
  idle hidle := absurd hidle hbusy
  on := (Bool.or_false _).symm
  starting _ _ := hrunning
  initialized content hawait := by cases hawait
  updating content hawait := by cases hawait
  stopping hawait := by cases hawait

theorem phase_updating (hbusy : s.queue.running ≠ none) (hrunning : s.running = true) :
    Phase { s with await := .updateService content } s.running where
  idle hidle := absurd hidle hbusy
  on := (Bool.or_false _).symm
  starting content hawait := by rcases hawait with hawait | hawait <;> cases hawait
  initialized content hawait := by cases hawait
  updating _ _ := hrunning
  stopping hawait := by cases hawait

theorem phase_stopping (hbusy : s.queue.running ≠ none) :
    Phase { s with running := false, await := .stopService } true where
  idle hidle := absurd hidle hbusy
  on := rfl
  starting content hawait := by rcases hawait with hawait | hawait <;> cases hawait
  initialized content hawait := by cases hawait
  updating content hawait := by cases hawait
  stopping _ := rfl

end Phase

theorem fine_of_busy {s : ForegroundService} {q : List ServiceAction}
    (hqueue : s.queue = ⟨q, some a⟩)
    (h : Orderly { n with service := s } on (s.await.actions ++ q)) (hphase : Phase s on) :
    Fine { n with service := s } := by
  refine ⟨on, ?_, hphase⟩
  have hpending : s.pending = s.await.actions ++ q := by
    unfold ForegroundService.pending
    rw [hqueue]
  show Orderly _ on s.pending
  rw [hpending]
  exact h

/-- An action of the queue begins. -/
theorem Orderly.enter {q : List ServiceAction} (h : Orderly n n.service.running (a :: q))
    (hqueue : n.service.queue = ⟨q, some a⟩) :
    Fine { n with service := n.service.enter } := by
  have hrun : n.service.queue.running = some a := by rw [hqueue]
  have hbusy : n.service.queue.running ≠ none := by
    rw [hrun]
    exact Option.some_ne_none a
  have hreturned (hq : Orderly n n.service.running q) :
      Fine { n with service := { n.service with await := .returned } } :=
    fine_of_busy hqueue (hq.service { n.service with await := .returned } rfl rfl rfl)
      (phase_returned fun hidle => absurd hidle hbusy)
  cases a with
  | start content =>
      have henter : n.service.enter = if n.service.running then
          { n.service with await := .returned }
          else { n.service with await := .permission content } := by
        unfold ForegroundService.enter
        rw [hrun]
      rw [henter]
      cases hrunning : n.service.running with
      | true =>
          rw [if_pos rfl]
          refine hreturned (h.drop (.inr (congrArg some hrunning.symm)) fun hok => ?_)
          -- the platform has a notification already
          obtain ⟨shown, hshown⟩ := Option.isSome_iff_exists.mp
            ((h.shows hok).2.symm.trans hrunning)
          rw [hshown]
          rfl
      | false =>
          rw [if_neg Bool.false_ne_true]
          exact fine_of_busy hqueue (h.service { n.service with await := .permission content }
            rfl rfl rfl) (phase_permission hbusy hrunning)
  | update content =>
      have henter : n.service.enter = if n.service.running then
          { n.service with await := .updateService content }
          else { n.service with await := .returned } := by
        unfold ForegroundService.enter
        rw [hrun]
      rw [henter]
      cases hrunning : n.service.running with
      | true =>
          rw [if_pos rfl]
          exact fine_of_busy hqueue (h.service { n.service with await := .updateService content }
            rfl rfl rfl) (phase_updating hbusy hrunning)
      | false =>
          rw [if_neg Bool.false_ne_true]
          refine hreturned (h.drop (.inl rfl) fun hok => ?_)
          have hshown : n.platform.shown = none := by
            simpa using (h.shows hok).2.symm.trans hrunning
          rw [hshown]
          rfl
  | stop =>
      have henter : n.service.enter = if n.service.running then
          { n.service with running := false, await := .stopService }
          else { n.service with await := .returned } := by
        unfold ForegroundService.enter
        rw [hrun]
      rw [henter]
      cases hrunning : n.service.running with
      | true =>
          rw [if_pos rfl]
          rw [hrunning] at h
          refine fine_of_busy hqueue ⟨h.calls, h.control, fun hnone => ?_, h.told, h.last, h.shows⟩
            (phase_stopping hbusy)
          -- to stop is still asked for
          have hsome := (Option.or_eq_none_iff.mp hnone).2
          cases hsome
      | false =>
          rw [if_neg Bool.false_ne_true]
          refine hreturned (h.drop (.inr (congrArg some hrunning.symm)) fun hok => ?_)
          have hshown : n.platform.shown = none := by
            simpa using (h.shows hok).2.symm.trans hrunning
          rw [hshown]
          rfl

/-- The queue goes on with its next action. -/
theorem Orderly.finish (h : Orderly n on n.service.queue.queue) (hon : on = n.service.running) :
    Fine { n with service := n.service.finish } := by
  subst hon
  cases hqueue : n.service.queue.queue with
  | nil =>
      have hdrain : n.service.queue.drain = ⟨[], none⟩ := by
        unfold FutureQueue.drain
        rw [hqueue]
      have hfinish :
          n.service.finish = { n.service with queue := ⟨[], none⟩, await := .returned } := by
        unfold ForegroundService.finish ForegroundService.enter
        rw [hdrain]
      rw [hfinish]
      rw [hqueue] at h
      have hphase : Phase { n.service with queue := ⟨[], none⟩, await := .returned }
          n.service.running :=
        phase_returned (s := { n.service with queue := ⟨[], none⟩ }) fun _ => rfl
      exact ⟨n.service.running, h.service _ rfl rfl rfl, hphase⟩
  | cons a q =>
      have hdrain : n.service.queue.drain = ⟨q, some a⟩ := by
        unfold FutureQueue.drain
        rw [hqueue]
      rw [hqueue] at h
      exact (h.service { n.service with queue := n.service.queue.drain } rfl rfl rfl).enter hdrain

/-- An action is added. -/
theorem Orderly.add (h : Orderly n on (n.service.pending ++ [a])) (hphase : Phase n.service on) :
    Fine { n with service := n.service.add a } := by
  unfold ForegroundService.add
  cases hrunning : n.service.queue.running with
  | some b =>
      have hadd : n.service.queue.add a = ⟨n.service.queue.queue ++ [a], some b⟩ := by
        unfold FutureQueue.add
        rw [hrunning]
      have hpending : n.service.pending ++ [a] =
          n.service.await.actions ++ (n.service.queue.queue ++ [a]) := by
        unfold ForegroundService.pending
        rw [hrunning]
        exact List.append_assoc ..
      rw [hpending] at h
      refine fine_of_busy hadd
        (h.service { n.service with queue := n.service.queue.add a } rfl rfl rfl) ?_
      refine ⟨fun hidle => ?_, hphase.on, hphase.starting, hphase.initialized, hphase.updating,
        hphase.stopping⟩
      have hnone : (n.service.queue.add a).running = none := hidle
      rw [hadd] at hnone
      cases hnone
  | none =>
      obtain ⟨hempty, hawait⟩ := hphase.idle hrunning
      have hadd : n.service.queue.add a = ⟨[], some a⟩ := by
        unfold FutureQueue.add FutureQueue.drain
        rw [hrunning, hempty]
        rfl
      have hpending : n.service.pending = [] := by
        unfold ForegroundService.pending
        rw [hrunning]
      have hon : on = n.service.running := by
        rw [hphase.on, hawait]
        exact Bool.or_false _
      rw [hpending, hon] at h
      exact Orderly.enter
        (h.service { n.service with queue := n.service.queue.add a } rfl rfl rfl) hadd

/-! ### Every step -/

theorem fine_init : Fine .init := by
  refine ⟨false, ⟨⟨.off, rfl, rfl, rfl⟩, fun b hb => ?_, fun _ => rfl, rfl,
    fun content hcontent => ?_, fun _ => ⟨rfl, rfl⟩⟩, phase_returned (s := .init) fun _ => rfl⟩
  · cases hb
  · cases hcontent

/-- The times and texts of the last update are no part of it. -/
theorem Phase.times {s : ForegroundService} (h : Phase s on) (lastUpdate : Option ℤ)
    (lastContent : Option Content) :
    Phase { s with lastUpdate := lastUpdate, lastContent := lastContent } on :=
  ⟨h.idle, h.on, h.starting, h.initialized, h.updating, h.stopping⟩

variable {strings : NotificationStrings} {sessionId : String} {receiving : Bool} {now : ℤ}
  {n' : Notification}

theorem Fine.start (h : Fine n) : Fine (n.start strings sessionId receiving) := by
  obtain ⟨on, hn, hphase⟩ := h
  have hinsert : ∀ transfer : Transfer,
      (n.transfers.insert sessionId transfer).isEmpty = false := fun _ => AssocMap.isEmpty_insert
  unfold Notification.start
  split
  · exact ⟨on, hn, hphase⟩
  dsimp only
  cases hempty : n.transfers.isEmpty with
  | true =>
      rw [if_pos rfl]
      have hstart := hn.start hempty (hinsert ⟨receiving, 0, 0, none⟩)
        (strings.content (n.transfers.insert sessionId ⟨receiving, 0, 0, none⟩))
        { n.service with lastUpdate := none, lastContent := none } rfl rfl
      exact Orderly.add hstart (hphase.times none none)
  | false =>
      rw [if_neg Bool.false_ne_true]
      exact ⟨on, hn.among hempty (hinsert _), hphase⟩

/-- The notification is told something new, or is not. -/
theorem Fine.refresh (h : Fine n) (hsome : n.transfers.isEmpty = false) :
    Fine (n.refresh strings now) := by
  obtain ⟨on, hn, hphase⟩ := h
  unfold Notification.refresh ForegroundService.updateNotification
  dsimp only
  cases n.service.throttled now with
  | true =>
      rw [if_pos rfl, if_pos rfl]
      exact ⟨on, hn, hphase⟩
  | false =>
      rw [if_neg Bool.false_ne_true, if_neg Bool.false_ne_true]
      split
      case isTrue hsame =>
        rw [← hn.last _ hsame]
        exact ⟨on, hn.service { n.service with lastUpdate := some now } rfl rfl rfl,
          hphase.times (some now) n.service.lastContent⟩
      case isFalse =>
        have hupdate := hn.update hsome { n.service with
          lastUpdate := some now, lastContent := some (strings.content n.transfers) } rfl rfl rfl
        exact Orderly.add hupdate (hphase.times (some now) _)

theorem isEmpty_of_contains (h : n.contains sessionId = true) : n.transfers.isEmpty = false := by
  obtain ⟨transfer, hget⟩ := Option.isSome_iff_exists.mp h
  exact List.isEmpty_eq_false_iff_exists_mem.mpr
    ⟨(sessionId, transfer), AssocMap.get?_eq_some_iff.mp hget⟩

theorem Fine.update {currentBytes totalBytes : ℕ} {startTime endTime : Option ℤ} (h : Fine n) :
    Fine (n.update strings sessionId currentBytes totalBytes startTime endTime now) := by
  unfold Notification.update
  split
  case isFalse => exact h
  case isTrue hcontains =>
    have hsome := isEmpty_of_contains hcontains
    have hmodify : ∀ f : Transfer → Transfer,
        (n.transfers.modify sessionId f).isEmpty = false := by
      intro f
      show ((n.transfers.entries.map _).isEmpty) = false
      rw [List.isEmpty_map]
      exact hsome
    obtain ⟨on, hn, hphase⟩ := h
    exact Fine.refresh ⟨on, hn.among hsome (hmodify _), hphase⟩ (hmodify _)

theorem Fine.stop (h : Fine n) : Fine (n.stop strings sessionId now) := by
  unfold Notification.stop
  split
  case isFalse => exact h
  case isTrue hcontains =>
    have hsome := isEmpty_of_contains hcontains
    obtain ⟨on, hn, hphase⟩ := h
    dsimp only
    cases hempty : (n.transfers.filter fun id _ => id ≠ sessionId).isEmpty with
    | true =>
        rw [if_pos rfl]
        have hstop := hn.stop hempty
          { n.service with lastUpdate := none, lastContent := none } rfl rfl
        exact Orderly.add hstop (hphase.times none none)
    | false =>
        rw [if_neg Bool.false_ne_true]
        exact Fine.refresh ⟨on, hn.among hsome hempty, hphase⟩ hempty

section Bracketed

variable {initialized : Bool} {shown : Option Content} {calls : List PlatformCall}
  {service : Service}

theorem bracket_concat {call : PlatformCall}
    (h : calls.foldlM bracket (false, .off) = some (initialized, service)) :
    (calls ++ [call]).foldlM bracket (false, .off) = bracket (initialized, service) call := by
  rw [List.foldlM_append, h]
  show (bracket (initialized, service) call).bind some = _
  cases bracket (initialized, service) call with
  | none | some _ => rfl

theorem Bracketed.init (h : Bracketed calls false on shown) :
    Bracketed (calls ++ [.init]) true on shown := by
  obtain ⟨service, hcalls, hon, hshown⟩ := h
  exact ⟨service, bracket_concat hcalls, hon, hshown⟩

theorem Bracketed.started (h : Bracketed calls true false shown) (answer : Answer) :
    Bracketed (calls ++ [.startService content answer]) true answer.ok
      (if answer.ok then some content else shown) := by
  obtain ⟨service, hcalls, hon, hshown⟩ := h
  cases service with
  | on => cases hon
  | off =>
      refine ⟨if answer.ok then .on else .off, bracket_concat hcalls, ?_⟩
      cases answer.ok with
      | true => exact ⟨rfl, rfl⟩
      | false => exact ⟨rfl, hshown⟩
  | left =>
      refine ⟨if answer.ok then .on else .left, bracket_concat hcalls, ?_⟩
      cases answer.ok with
      | true => exact ⟨rfl, rfl⟩
      | false => exact ⟨rfl, hshown⟩

theorem Bracketed.service_on (h : Bracketed calls initialized true shown) :
    calls.foldlM bracket (false, .off) = some (initialized, .on) ∧ shown.isSome = true := by
  obtain ⟨service, hcalls, hon, hshown⟩ := h
  obtain rfl : service = .on := of_decide_eq_true hon.symm
  exact ⟨hcalls, hshown⟩

theorem Bracketed.updated (h : Bracketed calls initialized true shown) (answer : Answer) :
    Bracketed (calls ++ [.updateService content answer]) initialized true
      (if answer.ok then shown.map fun _ => content else shown) := by
  obtain ⟨hcalls, hshown⟩ := h.service_on
  have hcall : bracket (initialized, .on) (.updateService content answer) =
      some (initialized, .on) := by
    cases initialized <;> rfl
  refine ⟨.on, (bracket_concat hcalls).trans hcall, rfl, ?_⟩
  split
  · rw [Option.isSome_map]
    exact hshown
  · exact hshown

theorem Bracketed.stopped (h : Bracketed calls initialized true shown) (answer : Answer) :
    Bracketed (calls ++ [.stopService answer]) initialized false
      (if answer.ok then none else shown) := by
  obtain ⟨hcalls, hshown⟩ := h.service_on
  have hcall : bracket (initialized, .on) (.stopService answer) =
      some (initialized, if answer.ok then .off else .left) := by
    cases initialized <;> rfl
  refine ⟨_, (bracket_concat hcalls).trans hcall, ?_⟩
  cases answer.ok with
  | true => exact ⟨rfl, rfl⟩
  | false => exact ⟨rfl, hshown⟩

end Bracketed

theorem refused_concat {calls : List PlatformCall} {call : PlatformCall} :
    refused (calls ++ [call]) = match call with
      | .startService _ answer => !answer.ok
      | .init | .updateService _ _ | .stopService _ => refused calls :=
  List.foldl_append

theorem all_concat {calls : List PlatformCall} {call : PlatformCall}
    (h : (calls ++ [call]).all PlatformCall.ok = true) :
    calls.all PlatformCall.ok = true ∧ call.ok = true := by
  rw [List.all_append, Bool.and_eq_true] at h
  exact ⟨h.1, by simpa using h.2⟩

theorem pending_of_running {s : ForegroundService} (ha : s.queue.running = some a) :
    s.pending = s.await.actions ++ s.queue.queue := by
  unfold ForegroundService.pending
  rw [ha]

theorem Fine.resumed (h : Fine n) (ha : n.service.queue.running = some a)
    (hawait : n.service.await = .returned) : Fine { n with service := n.service.finish } := by
  obtain ⟨on, hn, hphase⟩ := h
  have hon : on = n.service.running := by
    rw [hphase.on, hawait]
    exact Bool.or_false _
  rw [pending_of_running ha, hawait] at hn
  exact hn.finish hon

theorem Fine.granted (h : Fine n) (ha : n.service.queue.running = some a)
    (hawait : n.service.await = .permission content) : Fine (n.granted content) := by
  obtain ⟨on, hn, hphase⟩ := h
  have hbusy : n.service.queue.running ≠ none := by
    rw [ha]
    exact Option.some_ne_none a
  rw [pending_of_running ha, hawait] at hn
  refine ⟨on, ?_, ?_⟩
  · rw [show (n.granted content).service.pending = .start content :: n.service.queue.queue from
      pending_of_running ha]
    refine ⟨?_, hn.control, fun hnone => ?_, hn.told, hn.last, fun hok => ?_⟩
    · have hcalls := hn.calls
      show Bracketed (n.platform.calls ++ _) true on n.platform.shown
      cases hinit : n.service.initialized with
      | true =>
          rw [hinit] at hcalls
          rw [if_pos rfl, List.append_nil]
          exact hcalls
      | false =>
          rw [hinit] at hcalls
          rw [if_neg Bool.false_ne_true]
          exact hcalls.init
    · have hsome := (Option.or_eq_none_iff.mp hnone).2
      cases hsome
    · refine hn.shows ?_
      have hall : (n.platform.calls ++ _).all PlatformCall.ok = true := hok
      rw [List.all_append, Bool.and_eq_true] at hall
      exact hall.1
  · refine ⟨fun hidle => absurd hidle hbusy, ?_, ?_, fun _ _ => rfl, fun content hawait => ?_,
      fun hawait => ?_⟩
    · have hon := hphase.on
      rw [hawait] at hon
      exact hon
    · exact fun _ _ => hphase.starting content (.inl hawait)
    · cases hawait
    · cases hawait

section Answers

variable {q : List ServiceAction}

/-- The platform answers whether it has started the service. -/
theorem Orderly.started (h : Orderly n false (.start content :: q))
    (hinit : n.service.initialized = true) (answer : Answer) :
    Orderly { n with
      service := { n.service with running := answer.ok }
      platform := ⟨if answer.ok then some content else n.platform.shown,
        n.platform.calls ++ [.startService content answer]⟩ } answer.ok q where
  calls := by
    have hcalls := h.calls
    rw [hinit] at hcalls
    show Bracketed (n.platform.calls ++ _) n.service.initialized _ _
    rw [hinit]
    exact hcalls.started answer
  control b hb := by
    refine h.control b ?_
    rw [lastControl, hb]
    rfl
  quiet hnone := by
    have hfirst := h.control true (by rw [lastControl, hnone]; rfl)
    show if n.transfers.isEmpty then answer.ok = false else answer.ok = true ∨ refused _ = true
    cases hempty : n.transfers.isEmpty with
    | true =>
        rw [hempty] at hfirst
        cases hfirst
    | false =>
        rw [if_neg Bool.false_ne_true, refused_concat]
        show answer.ok = true ∨ (!answer.ok) = true
        cases answer.ok with
        | true => exact .inl rfl
        | false => exact .inr rfl
  told := h.told
  last := h.last
  shows hok := by
    obtain ⟨hall, hanswer⟩ := all_concat hok
    have hanswer : answer.ok = true := hanswer
    obtain ⟨hshows, hshown⟩ := h.shows hall
    have hnone : n.platform.shown = none := by simpa using hshown.symm
    rw [hnone] at hshows
    rw [hanswer]
    exact ⟨hshows, rfl⟩

theorem Orderly.updated (h : Orderly n true (.update content :: q)) (answer : Answer) :
    Orderly { n with platform :=
      ⟨if answer.ok then n.platform.shown.map fun _ => content else n.platform.shown,
        n.platform.calls ++ [.updateService content answer]⟩ } true q where
  calls := h.calls.updated answer
  control b hb := by
    refine h.control b ?_
    rw [lastControl, hb]
    rfl
  quiet hnone := by
    have hquiet := h.quiet (by rw [lastControl, hnone]; rfl)
    show if n.transfers.isEmpty then _ else _ ∨ refused _ = true
    rw [refused_concat]
    exact hquiet
  told := h.told
  last := h.last
  shows hok := by
    obtain ⟨hall, hanswer⟩ := all_concat hok
    have hanswer : answer.ok = true := hanswer
    obtain ⟨hshows, hshown⟩ := h.shows hall
    rw [hanswer, if_pos rfl]
    refine ⟨hshows, ?_⟩
    rw [Option.isSome_map]
    exact hshown

theorem Orderly.stopped (h : Orderly n true (.stop :: q)) (hrunning : n.service.running = false)
    (answer : Answer) :
    Orderly { n with platform :=
      ⟨if answer.ok then none else n.platform.shown,
        n.platform.calls ++ [.stopService answer]⟩ } false q where
  calls := h.calls.stopped answer
  control b hb := by
    refine h.control b ?_
    rw [lastControl, hb]
    rfl
  quiet hnone := by
    have hlast := h.control false (by rw [lastControl, hnone]; rfl)
    show if n.transfers.isEmpty then n.service.running = false else _
    cases hempty : n.transfers.isEmpty with
    | true => exact hrunning
    | false =>
        rw [hempty] at hlast
        cases hlast
  told := h.told
  last := h.last
  shows hok := by
    obtain ⟨hall, hanswer⟩ := all_concat hok
    have hanswer : answer.ok = true := hanswer
    obtain ⟨hshows, -⟩ := h.shows hall
    rw [hanswer]
    exact ⟨hshows, rfl⟩

theorem Fine.answered {answer : Answer} (h : Fine n) (ha : n.service.queue.running = some a)
    (hanswered : n.answered answer = some n') : Fine n' := by
  obtain ⟨on, hn, hphase⟩ := h
  rw [pending_of_running ha] at hn
  have hon := hphase.on
  unfold Notification.answered at hanswered
  cases hawait : n.service.await with
  | returned | permission content =>
      rw [hawait] at hanswered
      cases hanswered
  | startService content =>
      rw [hawait] at hanswered hn hon
      obtain rfl := Option.some.inj hanswered
      obtain rfl : on = false := by
        rw [hon, hphase.starting content (.inr hawait)]
        rfl
      exact (hn.started (hphase.initialized content hawait) answer).finish rfl
  | updateService content =>
      rw [hawait] at hanswered hn hon
      obtain rfl := Option.some.inj hanswered
      have hrunning := hphase.updating content hawait
      obtain rfl : on = true := by
        rw [hon, hrunning]
        rfl
      exact (hn.updated answer).finish hrunning.symm
  | stopService =>
      rw [hawait] at hanswered hn hon
      obtain rfl := Option.some.inj hanswered
      have hrunning := hphase.stopping hawait
      obtain rfl : on = true := by
        rw [hon, hrunning]
        rfl
      exact (hn.stopped hrunning answer).finish hrunning.symm

end Answers

theorem Fine.step {e : Notification.Event} (h : Fine n)
    (hstep : Notification.step strings n e = some n') : Fine n' := by
  cases e with
  | start sessionId receiving =>
      obtain rfl := Option.some.inj hstep
      exact h.start
  | update sessionId currentBytes totalBytes startTime endTime now =>
      obtain rfl := Option.some.inj hstep
      exact h.update
  | stop sessionId now =>
      obtain rfl := Option.some.inj hstep
      exact h.stop
  | resumed =>
      dsimp only [Notification.step] at hstep
      split at hstep
      case h_1 ha hawait =>
        obtain rfl := Option.some.inj hstep
        exact h.resumed ha hawait
      case h_2 => cases hstep
  | granted =>
      dsimp only [Notification.step] at hstep
      split at hstep
      case h_1 ha hawait =>
        obtain rfl := Option.some.inj hstep
        exact h.granted ha hawait
      case h_2 => cases hstep
  | answered answer =>
      dsimp only [Notification.step] at hstep
      split at hstep
      case h_1 ha => exact h.answered ha hstep
      case h_2 => cases hstep

theorem fine_of_run (hrun : Reach (Notification.step strings) .init n) : Fine n :=
  hrun.invariant fine_init fun _ _ _ hm _ hst => hm.step hst

end Orderly

/-! ## §5  When nothing is left to do -/

section Quiet

variable {strings : NotificationStrings} {n n' : Notification}

/-- The texts of a test. -/
def plainStrings : NotificationStrings :=
  ⟨"Receiving", "Sending", fun (currentBytes, totalBytes, _) =>
    s!"{currentBytes} / {totalBytes}"⟩

def Await.weight : Await → ℕ
  | .permission _ => 3
  | .startService _ => 2
  | .returned | .updateService _ | .stopService => 1

/-- How much is left to do. -/
def ForegroundService.work (s : ForegroundService) : ℕ :=
  match s.queue.running with
  | none => 0
  | some _ => 3 * s.queue.queue.length + s.await.weight

/-- The queue goes on, and the platform does what it is asked for. -/
def Notification.Event.obliging : Notification.Event → Bool
  | .resumed | .granted | .answered .success => true
  | .start .. | .update .. | .stop .. | .answered .failure | .answered .throws => false

theorem Await.weight_pos (w : Await) : 0 < w.weight := by
  cases w with
  | permission _ => exact Nat.zero_lt_succ 2
  | startService _ => exact Nat.zero_lt_succ 1
  | returned | updateService _ | stopService => exact Nat.one_pos

theorem Await.weight_le (w : Await) : w.weight ≤ 3 := by
  cases w with
  | permission _ => exact Nat.le_refl 3
  | startService _ => exact Nat.le_succ 2
  | returned | updateService _ | stopService => exact Nat.le_add_left 1 2

theorem work_of_running {s : ForegroundService} {a : ServiceAction}
    (ha : s.queue.running = some a) : s.work = 3 * s.queue.queue.length + s.await.weight := by
  unfold ForegroundService.work
  rw [ha]

theorem enter_queue (s : ForegroundService) : s.enter.queue = s.queue := by
  unfold ForegroundService.enter
  cases s.queue.running with
  | none => rfl
  | some a => cases a with | start _ | update _ | stop => cases s.running <;> rfl

/-- The first thing an action waits for is at most the permission. -/
theorem enter_work (s : ForegroundService) : s.enter.work ≤ 3 * s.queue.queue.length + 3 := by
  unfold ForegroundService.work
  rw [enter_queue]
  cases s.queue.running with
  | none => exact Nat.zero_le _
  | some a => exact Nat.add_le_add_left (Await.weight_le _) _

theorem finish_work {s : ForegroundService} {a : ServiceAction}
    (ha : s.queue.running = some a) : s.finish.work < s.work := by
  rw [work_of_running ha]
  have hpos := s.await.weight_pos
  unfold ForegroundService.finish
  cases hqueue : s.queue.queue with
  | nil =>
      have hidle : s.queue.drain.running = none := by
        unfold FutureQueue.drain
        rw [hqueue]
      have hzero : ({ s with queue := s.queue.drain } : ForegroundService).enter.work = 0 := by
        unfold ForegroundService.work
        rw [enter_queue, hidle]
      rw [hzero]
      exact Nat.lt_of_lt_of_le hpos (Nat.le_add_left _ _)
  | cons b q =>
      have hdrain : s.queue.drain.queue = q := by
        unfold FutureQueue.drain
        rw [hqueue]
      have hle := enter_work { s with queue := s.queue.drain }
      rw [show ({ s with queue := s.queue.drain } : ForegroundService).queue.queue = q from hdrain]
        at hle
      rw [List.length_cons]
      omega

/-- What is asked of the notification, and how much of it is left to do. -/
structure Advances (n n' : Notification) : Prop where
  transfers : n'.transfers = n.transfers
  told : n'.told = n.told
  ok : n.platform.calls.all PlatformCall.ok = true → n'.platform.calls.all PlatformCall.ok = true

theorem Advances.trans {n₁ n₂ n₃ : Notification} (h : Advances n₁ n₂) (h' : Advances n₂ n₃) :
    Advances n₁ n₃ :=
  ⟨h'.transfers.trans h.transfers, h'.told.trans h.told, fun hok => h'.ok (h.ok hok)⟩

theorem all_concat_ok {calls : List PlatformCall} {call : PlatformCall}
    (h : calls.all PlatformCall.ok = true) (hcall : call.ok = true) :
    (calls ++ [call]).all PlatformCall.ok = true := by
  rw [List.all_append, h, List.all_cons, hcall]
  rfl

/-- Each obliging step leaves less to do, and to the notification it does what it should. -/
theorem obliging_step {e : Notification.Event} (hown : e.obliging = true)
    (hstep : Notification.step strings n e = some n') :
    n'.service.work < n.service.work ∧ Advances n n' := by
  cases e with
  | start | update | stop => cases hown
  | resumed =>
      dsimp only [Notification.step] at hstep
      split at hstep
      case h_1 ha hawait =>
        obtain rfl := Option.some.inj hstep
        exact ⟨finish_work ha, rfl, rfl, id⟩
      case h_2 => cases hstep
  | granted =>
      dsimp only [Notification.step] at hstep
      split at hstep
      case h_1 content ha hawait =>
        obtain rfl := Option.some.inj hstep
        refine ⟨?_, rfl, rfl, fun hok => ?_⟩
        · rw [work_of_running ha, hawait, work_of_running (s := (n.granted content).service) ha]
          exact Nat.add_lt_add_left (Nat.lt_succ_self 2) _
        · show (n.platform.calls ++ _).all PlatformCall.ok = true
          rw [List.all_append, hok]
          cases n.service.initialized with
          | true | false => rfl
      case h_2 => cases hstep
  | answered answer =>
      dsimp only [Notification.step] at hstep
      split at hstep
      case h_1 ha =>
        obtain rfl : answer = .success := by
          cases answer with
          | success => rfl
          | failure | throws => cases hown
        unfold Notification.answered at hstep
        split at hstep
        case h_1 hawait =>
          obtain rfl := Option.some.inj hstep
          refine ⟨?_, rfl, rfl, fun hok => all_concat_ok hok rfl⟩
          exact finish_work (s := { n.service with running := true }) ha
        case h_2 | h_3 =>
          obtain rfl := Option.some.inj hstep
          exact ⟨finish_work ha, rfl, rfl, fun hok => all_concat_ok hok rfl⟩
        case h_4 | h_5 => cases hstep
      case h_2 => cases hstep

theorem obliging_run {es : List Notification.Event} (hes : ∀ e ∈ es, e.obliging = true)
    (hexec : exec (Notification.step strings) n es = some n') : Advances n n' := by
  induction es generalizing n with
  | nil =>
      obtain rfl := Option.some.inj hexec
      exact ⟨rfl, rfl, id⟩
  | cons e es ih =>
      obtain ⟨m, hm, hrest⟩ := Option.bind_eq_some_iff.mp hexec
      obtain ⟨he, hes⟩ := List.forall_mem_cons.mp hes
      exact (obliging_step he hm).2.trans (ih hes hrest)

/-- As long as an action runs, there is a step. -/
theorem idle_of_stuck
    (hstuck : ∀ e : Notification.Event, e.obliging = true → Notification.step strings n e = none) :
    n.service.queue.running = none := by
  cases hrunning : n.service.queue.running with
  | none => rfl
  | some a =>
      have hresumed := hstuck .resumed rfl
      have hgranted := hstuck .granted rfl
      have hanswered := hstuck (.answered .success) rfl
      dsimp only [Notification.step] at hresumed hgranted hanswered
      rw [hrunning] at hresumed hgranted hanswered
      unfold Notification.answered at hanswered
      cases hawait : n.service.await with
      | returned =>
          rw [hawait] at hresumed
          cases hresumed
      | permission content =>
          rw [hawait] at hgranted
          cases hgranted
      | startService | updateService | stopService =>
          rw [hawait] at hanswered
          cases hanswered

/-- From every reachable state in which no call has failed, the queue is soon done, if the
platform goes on as it should; and then the platform shows the notification exactly while there
is a transfer, and it says what it was last told. -/
theorem service_follows (hrun : Reach (Notification.step strings) .init n)
    (hok : n.platform.calls.all PlatformCall.ok = true) :
    (∀ es n', (∀ e ∈ es, e.obliging = true) →
      exec (Notification.step strings) n es = some n' →
      es.length ≤ n.service.work ∧
        (n'.service.queue.running = none → n'.platform.shown = n.told)) ∧
    (∃ es n', (∀ e ∈ es, e.obliging = true) ∧
      exec (Notification.step strings) n es = some n' ∧ n'.service.queue.running = none) ∧
    n.told.isSome = !n.transfers.isEmpty := by
  have hkeeps : ∀ m e m', True → Notification.step strings m e = some m' → True :=
    fun _ _ _ _ _ => trivial
  have hown : ∀ m (e : Notification.Event) m', True → e.obliging = true →
      Notification.step strings m e = some m' → m'.service.work < m.service.work :=
    fun _ _ _ _ he hstep => (obliging_step he hstep).1
  refine ⟨fun es n' hes hexec => ⟨?_, fun hidle => ?_⟩, ?_, ?_⟩
  · exact length_le_of_own hkeeps hown trivial hes hexec
  · have hadvances := obliging_run hes hexec
    obtain ⟨on, hn', -⟩ := fine_of_run (hrun.trans (reach_of_exec hexec))
    have hshows := (hn'.shows (hadvances.ok hok)).1
    unfold ForegroundService.pending at hshows
    rw [hidle] at hshows
    exact hshows.trans hadvances.told
  · obtain ⟨es, n', hes, hexec, hstuck⟩ :=
      exists_exec_stuck (s := n) hkeeps hown trivial
    exact ⟨es, n', hes, hexec, idle_of_stuck hstuck⟩
  · obtain ⟨on, hn, -⟩ := fine_of_run hrun
    exact hn.told

/-- The first transfer ends while the other one runs. -/
def followedRun : List Notification.Event :=
  [.start "a" true, .start "b" false, .granted, .answered .success, .stop "a" 0]

theorem service_follows_followed : ∃ n,
    exec (Notification.step plainStrings) .init followedRun = some n ∧
      n.platform.shown = some ⟨"Receiving", "0 / 0"⟩ ∧ n.told = some ⟨"Sending", "0 / 0"⟩ ∧
      (∀ es n', (∀ e ∈ es, e.obliging = true) →
        exec (Notification.step plainStrings) n es = some n' →
        es.length ≤ n.service.work ∧
          (n'.service.queue.running = none → n'.platform.shown = n.told)) ∧
      (∃ es n', (∀ e ∈ es, e.obliging = true) ∧
        exec (Notification.step plainStrings) n es = some n' ∧
          n'.service.queue.running = none) ∧
      n.told.isSome = !n.transfers.isEmpty := by
  obtain ⟨n, hexec, hcheck⟩ := exists_of_exec_any (Notification.step plainStrings) .init followedRun
    (fun n => decide (n.platform.calls.all PlatformCall.ok = true ∧
      n.platform.shown = some ⟨"Receiving", "0 / 0"⟩ ∧ n.told = some ⟨"Sending", "0 / 0"⟩))
    (by decide +kernel)
  obtain ⟨hok, hshown, htold⟩ := of_decide_eq_true hcheck
  exact ⟨n, hexec, hshown, htold, service_follows (reach_of_exec hexec) hok⟩

end Quiet

/-! ## §7  The notification of the sessions -/

section Sessions

variable {strings : NotificationStrings} {n : Notification} {sessionId : String}

/-- The transfers, and whether the service was asked to run. -/
def Notification.toTransferNotification (n : Notification) : TransferNotification where
  transfers := n.transfers.mapVal fun _ transfer => transfer.receiving
  service := !n.transfers.isEmpty
  runs := by
    unfold AssocMap.isEmpty AssocMap.mapVal
    rw [List.isEmpty_map]

theorem contains_toTransferNotification :
    n.toTransferNotification.contains sessionId = n.contains sessionId := by
  show ((n.transfers.mapVal _).get? sessionId).isSome = _
  rw [AssocMap.get?_mapVal, Option.isSome_map]
  rfl

theorem TransferNotification.eq_of_transfers {t t' : TransferNotification}
    (h : t.transfers = t'.transfers) : t = t' := by
  obtain ⟨transfers, service, hruns⟩ := t
  obtain ⟨transfers', service', hruns'⟩ := t'
  obtain rfl : transfers = transfers' := h
  obtain rfl : service = service' := hruns.trans hruns'.symm
  rfl

theorem toTransferNotification_start {receiving : Bool} :
    (n.start strings sessionId receiving).toTransferNotification =
      n.toTransferNotification.start sessionId receiving := by
  refine TransferNotification.eq_of_transfers ?_
  unfold Notification.start TransferNotification.start
  rw [contains_toTransferNotification]
  cases hcontains : n.contains sessionId with
  | true => rfl
  | false =>
      have hkey : sessionId ∉ n.transfers.keys := by
        intro hmem
        obtain ⟨transfer, hget⟩ := AssocMap.mem_keys_iff.mp hmem
        unfold Notification.contains at hcontains
        rw [hget] at hcontains
        cases hcontains
      have hkey' : sessionId ∉ n.toTransferNotification.transfers.keys := by
        unfold Notification.toTransferNotification AssocMap.mapVal AssocMap.keys
        rw [List.map_map]
        exact hkey
      have hinsert : (n.transfers.insert sessionId ⟨receiving, 0, 0, none⟩).mapVal
            (fun _ transfer => transfer.receiving) =
          n.toTransferNotification.transfers.insert sessionId receiving := by
        apply AssocMap.ext
        rw [AssocMap.entries_insert_of_not_mem hkey']
        show (AssocMap.insert _ _ n.transfers).entries.map _ = _
        rw [AssocMap.entries_insert_of_not_mem hkey, List.map_append]
        rfl
      rw [if_neg Bool.false_ne_true, if_neg Bool.false_ne_true]
      refine Eq.trans ?_ hinsert
      dsimp only
      split <;> rfl

theorem toTransferNotification_stop {now : ℤ} :
    (n.stop strings sessionId now).toTransferNotification =
      n.toTransferNotification.stop sessionId := by
  refine TransferNotification.eq_of_transfers ?_
  unfold Notification.stop TransferNotification.stop
  have hcontains := @contains_toTransferNotification n sessionId
  cases hn : n.contains sessionId with
  | false =>
      rw [hn] at hcontains
      rw [if_neg Bool.false_ne_true, dif_neg (Bool.eq_false_iff.mp hcontains)]
  | true =>
      rw [hn] at hcontains
      rw [if_pos rfl, dif_pos hcontains]
      have hfilter : (n.transfers.filter fun id _ => id ≠ sessionId).mapVal
            (fun _ transfer => transfer.receiving) =
          n.toTransferNotification.transfers.filter fun id _ => id ≠ sessionId := by
        apply AssocMap.ext
        show List.map _ (List.filter _ _) = List.filter _ (List.map _ _)
        rw [List.filter_map]
        rfl
      refine Eq.trans ?_ hfilter
      dsimp only
      split <;> rfl

theorem toTransferNotification_update {currentBytes totalBytes : ℕ}
    {startTime endTime : Option ℤ} {now : ℤ} :
    (n.update strings sessionId currentBytes totalBytes startTime endTime
      now).toTransferNotification = n.toTransferNotification := by
  refine TransferNotification.eq_of_transfers ?_
  unfold Notification.update
  split
  case isFalse => rfl
  case isTrue =>
    apply AssocMap.ext
    show List.map _ (List.map _ _) = List.map _ _
    rw [List.map_map]
    refine List.map_congr_left fun entry _ => ?_
    by_cases heq : entry.1 = sessionId
    · simp [heq]
    · simp [heq]

end Sessions

end Foreground

end FireBoxTransfer

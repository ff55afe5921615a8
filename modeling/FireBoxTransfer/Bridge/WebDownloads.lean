import FireBoxTransfer.Core.WebSessions

/-!
# Web downloads of the application

The bridge takes the events of the web server and hands them to the application without their
channel. It keeps the channel of a download under the session and the file, and the
application answers with these two. A second request for the same file replaces the channel of
the first one.
-/

namespace FireBoxTransfer

open TaskPool Runs

namespace WebSend

/-! ## §1  The bridge -/

/-- A download that the application was asked for and has yet to answer. It sees the session
and the file; `contentTx` tells which request the event came from. -/
structure FileDownloadEvent where
  sessionId : String
  fileId : String
  file : FileDto
  contentTx : ℕ
deriving DecidableEq

/-- The server with the bridge. `supplied` and `refused` note down what the application
answered, with the request that it answered. -/
structure WebBridge where
  web : WebPageState
  pendingDownloadDecisions : AssocMap String ℕ
  pendingDownloads : AssocMap (String × String) ℕ
  asked : List FileDownloadEvent
  supplied : List (ℕ × FileContent)
  refused : List ℕ

namespace WebBridge

/-- A channel whose sender is used, or dropped; the channel of a sender that was used stays. -/
def sendContent (s : WebBridge) (contentTx : ℕ) (answer : Oneshot FileContent) : WebBridge :=
  match resolve s.web.contents contentTx answer with
  | some contents => { s with web := { s.web with contents } }
  | none => s

def sendDecision (s : WebBridge) (decisionTx : ℕ) (answer : Oneshot Bool) : WebBridge :=
  match resolve s.web.decisions decisionTx answer with
  | some decisions => { s with web := { s.web with decisions } }
  | none => s

/-- A sender that an insertion replaces is dropped. -/
def dropReplaced (s : WebBridge) (key : String × String) : WebBridge :=
  match s.pendingDownloads.get? key with
  | some contentTx => s.sendContent contentTx .dropped
  | none => s

def dropReplacedDecision (s : WebBridge) (sessionId : String) : WebBridge :=
  match s.pendingDownloadDecisions.get? sessionId with
  | some decisionTx => s.sendDecision decisionTx .dropped
  | none => s

def handleWebEvent (s : WebBridge) : WebSendEvent → WebBridge
  | .prepareDownload _ sessionId _ decisionTx =>
      let s := s.dropReplacedDecision sessionId
      { s with
        pendingDownloadDecisions := s.pendingDownloadDecisions.insert sessionId decisionTx }
  | .fileDownload sessionId fileId file contentTx =>
      let s := s.dropReplaced (sessionId, fileId)
      { s with
        pendingDownloads := s.pendingDownloads.insert (sessionId, fileId) contentTx
        asked := s.asked ++ [⟨sessionId, fileId, file, contentTx⟩] }

def respondPrepareDownload (s : WebBridge) (sessionId : String) (accept : Bool) : WebBridge :=
  match s.pendingDownloadDecisions.get? sessionId with
  | none => s
  | some decisionTx =>
      { s with
        pendingDownloadDecisions := s.pendingDownloadDecisions.filter fun k _ => k ≠ sessionId
        }.sendDecision decisionTx (.sent accept)

/-- `content` is the source the application names, unless it names none or two. -/
def respondFileDownload (s : WebBridge) (sessionId fileId : String)
    (content : Option FileContent) : WebBridge :=
  match s.pendingDownloads.get? (sessionId, fileId) with
  | none => s
  | some contentTx =>
      { s with
        pendingDownloads := s.pendingDownloads.filter fun k _ => k ≠ (sessionId, fileId)
        }.sendContent contentTx (match content with
          | some content => .sent content
          | none => .dropped)

def failFileDownload (s : WebBridge) (sessionId fileId : String) : WebBridge :=
  match s.pendingDownloads.get? (sessionId, fileId) with
  | none => s
  | some contentTx =>
      { s with
        pendingDownloads := s.pendingDownloads.filter fun k _ => k ≠ (sessionId, fileId)
        }.sendContent contentTx .dropped

/-- The application has answered the event: with a content, or without one. -/
def note (s : WebBridge) (i : ℕ) (contentTx : ℕ) : Option FileContent → WebBridge
  | some content =>
      { s with asked := s.asked.eraseIdx i, supplied := s.supplied ++ [(contentTx, content)] }
  | none => { s with asked := s.asked.eraseIdx i, refused := s.refused ++ [contentTx] }

end WebBridge

/-! ## §2  The machine -/

/-- What a request for a file that the application was asked for is answered with. -/
inductive DownloadSeen where
  | delivered (contentTx : ℕ) (content : FileContent)
  | failed (contentTx : ℕ)
deriving DecidableEq

def noteAnswer : WebTask → WebTask → List DownloadSeen
  | .download (.content ctx), .answered (.ok (.content _ _ body)) => [.delivered ctx.content body]
  | .download (.content ctx), .answered (.error _) => [.failed ctx.content]
  | _, _ => []

/-- Requests arrive; the bridge takes an event; the application answers the event at place `i`
of those it was asked, in whatever order. -/
inductive BridgeEnv where
  | prepareDownload (clientInfo : RequestClientInfo) (query : List (String × String))
      (userAgent : Option String)
  | download (clientInfo : RequestClientInfo) (query : List (String × String))
  | takeEvent
  | decide (sessionId : String) (accept : Bool)
  | respond (i : ℕ) (content : Option FileContent)
  | fail (i : ℕ)
deriving DecidableEq

def bridgeTaskStep (ipText : PeerIp → String) (s : WebBridge) (t : WebTask) (a : WebAct) :
    Option (Outcome WebBridge WebTask DownloadSeen) :=
  (webTaskStep ipText s.web t a).map fun o =>
    { shared := { s with web := o.shared }
      task := o.task
      spawned := o.spawned
      seen := noteAnswer t o.task }

def bridgeEnvStep (s : WebBridge) : BridgeEnv → Option (WebBridge × List WebTask)
  | .prepareDownload clientInfo query userAgent =>
      some (s, [.prepareDownload (.start clientInfo (parseQuery query) userAgent)])
  | .download clientInfo query => some (s, [.download (.start clientInfo (parseQuery query))])
  | .takeEvent =>
      match s.web.events.queue with
      | [] => none
      | event :: queue =>
          let taken := { s with web := { s.web with events := { s.web.events with queue } } }
          some (taken.handleWebEvent event, [])
  | .decide sessionId accept => some (s.respondPrepareDownload sessionId accept, [])
  | .respond i content =>
      (s.asked[i]?).map fun event =>
        ((s.respondFileDownload event.sessionId event.fileId content).note i event.contentTx
          content, [])
  | .fail i =>
      (s.asked[i]?).map fun event =>
        ((s.failFileDownload event.sessionId event.fileId).note i event.contentTx none, [])

def bridgeMachine (ipText : PeerIp → String) :
    Machine WebBridge WebTask WebAct BridgeEnv DownloadSeen :=
  ⟨bridgeTaskStep ipText, bridgeEnvStep⟩

abbrev BridgePool : Type := Pool WebBridge WebTask DownloadSeen

abbrev BridgeLabel : Type := Label WebAct BridgeEnv

def BridgePool.init (files : AssocMap String FileDto) (pin : Option String) (cap : ℕ) :
    BridgePool :=
  ⟨⟨.new files pin cap, .empty, .empty, [], [], []⟩, [], []⟩

abbrev bridgeStep (ipText : PeerIp → String) : BridgePool → BridgeLabel → Option BridgePool :=
  (bridgeMachine ipText).poolStep

/-- The next event asks for a file that is pending under the same session. -/
def WebBridge.overlaps (s : WebBridge) : Bool :=
  match s.web.events.queue with
  | .fileDownload sessionId fileId _ _ :: _ =>
      (s.pendingDownloads.get? (sessionId, fileId)).isSome
  | _ => false

/-- **No two requests overlap** for one file and session: the bridge takes none while it has a
channel under these two. -/
def NoOverlap (p : BridgePool) : BridgeLabel → Prop
  | .env .takeEvent => p.shared.overlaps = false
  | _ => True

instance (p : BridgePool) : ∀ l : BridgeLabel, Decidable (NoOverlap p l)
  | .env .takeEvent => inferInstanceAs (Decidable (p.shared.overlaps = false))
  | .task _ _ | .env (.prepareDownload _ _ _) | .env (.download _ _) | .env (.decide _ _)
  | .env (.respond _ _) | .env (.fail _) => .isTrue trivial

/-! ## §3  What one step of a request does -/

/-- The channel that the event of a request will carry. -/
def WebTask.sending? : WebTask → Option ℕ
  | .download (.send ctx) => some ctx.content
  | _ => none

def WebSendEvent.contentTx? : WebSendEvent → Option ℕ
  | .fileDownload _ _ _ contentTx => some contentTx
  | _ => none

/-- The channels of the events that the bridge has yet to take. -/
def WebPageState.queued (s : WebPageState) : List ℕ :=
  s.events.queue.filterMap WebSendEvent.contentTx?

/-- The channels of the contents, by what a step of a task does with them. -/
inductive ContentMove (s : WebPageState) : WebTask → WebStep → Prop
  | rest {t o} (contents : o.shared.contents = s.contents) (queued : o.shared.queued = s.queued)
      (sending : ∀ u ∈ o.task :: o.spawned, u.sending? = none) : ContentMove s t o
  | request {t o} (contents : o.shared.contents = s.contents ++ [.waiting])
      (queued : o.shared.queued = s.queued) (sending : o.task.sending? = some s.contents.length)
      (spawned : o.spawned = []) : ContentMove s t o
  | send {t o contentTx} (before : t.sending? = some contentTx)
      (contents : o.shared.contents = s.contents)
      (queued : o.shared.queued = s.queued ++ [contentTx])
      (sending : o.task.sending? = none) (spawned : o.spawned = []) : ContentMove s t o

section Moves

variable {ipText : PeerIp → String} {s : WebPageState} {t : WebTask} {o : WebStep} {a : WebAct}

theorem queued_send {event : WebSendEvent} {events : WebEvents}
    (h : s.events.send event = some (.ok events)) :
    ({ s with events } : WebPageState).queued = s.queued ++ event.contentTx?.toList := by
  have hqueue : events.queue = s.events.queue ++ [event] := by
    unfold WebEvents.send at h
    split at h
    · cases h
    · split at h
      · cases h
        rfl
      · cases h
  unfold WebPageState.queued
  rw [hqueue, List.filterMap_append]
  cases hevent : event.contentTx? with
  | none => simp [hevent]
  | some contentTx => simp [hevent]

theorem clearStep_move {ctx : DownloadCtx} {t' : WebTask} (ht' : t'.sending? = none) :
    ContentMove s t (clearStep s ctx t') := by
  have hsending : ∀ u ∈ [t'], u.sending? = none := fun u hu => by
    rwa [List.mem_singleton.mp hu]
  rcases clearStep_cases s ctx t' with heq | heq
  · rw [heq]
    exact .rest rfl rfl hsending
  · rw [heq]
    exact .rest rfl rfl hsending

theorem abandon_move {ctx : DownloadCtx} : ContentMove s t (abandon s ctx) := by
  refine .rest rfl rfl fun u hu => ?_
  rcases List.mem_cons.mp hu with rfl | hu
  · rfl
  · rw [List.mem_singleton.mp hu]
    rfl

theorem askPin_contentMove {clientInfo : RequestClientInfo} {query : AssocMap String String}
    {userAgent : Option String} : ContentMove s t (askPin s clientInfo query userAgent) := by
  unfold askPin
  split
  · exact .rest rfl rfl (by simp [WebTask.sending?])
  · exact .rest rfl rfl (by simp [WebTask.sending?])

theorem prepareDownloadStep_contentMove {pc : PrepareDownload}
    (h : prepareDownloadStep ipText s pc a = some o) :
    ContentMove s (.prepareDownload pc) o := by
  cases a with
  | drop =>
      cases pc <;> cases h <;> exact .rest rfl rfl (by simp [WebTask.sending?])
  | go =>
      cases pc with
      | start clientInfo query userAgent =>
          simp only [prepareDownloadStep] at h
          split at h
          · cases h
            exact .rest rfl rfl (by simp [WebTask.sending?])
          · cases h
            exact askPin_contentMove
      | session clientInfo query userAgent sessionId =>
          simp only [prepareDownloadStep] at h
          split at h
          · cases h
            exact .rest rfl rfl (by simp [WebTask.sending?])
          · cases h
            exact askPin_contentMove
      | pin clientInfo query userAgent requiredPin =>
          simp only [prepareDownloadStep] at h
          split at h
          · cases h
            exact .rest rfl rfl (by simp [WebTask.sending?])
          · cases h
            exact .rest rfl rfl (by simp [WebTask.sending?])
      | insert clientInfo userAgent =>
          cases h
          exact .rest rfl rfl (by simp [WebTask.sending?])
      | send ctx =>
          simp only [prepareDownloadStep] at h
          split at h
          · cases h
          · cases h
            exact abandon_move
          · rename_i events hsend
            cases h
            refine .rest rfl ?_ (by simp [WebTask.sending?])
            exact (queued_send hsend).trans (List.append_nil _)
      | decision ctx =>
          simp only [prepareDownloadStep] at h
          split at h
          · cases h
            exact .rest rfl rfl (by simp [WebTask.sending?])
          · cases h
            exact .rest rfl rfl (by simp [WebTask.sending?])
          · cases h
            exact abandon_move
          · cases h
      | accept ctx =>
          cases h
          exact .rest rfl rfl (by simp [WebTask.sending?])
      | clear ctx =>
          cases h
          exact clearStep_move rfl
      | list ip sessionId =>
          cases h
          exact .rest rfl rfl (by simp [WebTask.sending?])

theorem downloadStep_contentMove {pc : Download} (h : downloadStep s pc a = some o) :
    ContentMove s (.download pc) o := by
  cases a with
  | drop =>
      cases pc <;> cases h <;> exact .rest rfl rfl (by simp [WebTask.sending?])
  | go =>
      cases pc with
      | start clientInfo query =>
          simp only [downloadStep] at h
          split at h <;> cases h <;> exact .rest rfl rfl (by simp [WebTask.sending?])
      | session clientInfo query sessionId =>
          simp only [downloadStep] at h
          split at h
          · cases h
            unfold requestFile
            split
            · exact .rest rfl rfl (by simp [WebTask.sending?])
            · split
              · exact .rest rfl rfl (by simp [WebTask.sending?])
              · exact .request rfl rfl rfl rfl
          · cases h
            exact .rest rfl rfl (by simp [WebTask.sending?])
      | send ctx =>
          simp only [downloadStep] at h
          split at h
          · cases h
          · cases h
            exact .rest rfl rfl (by simp [WebTask.sending?])
          · rename_i events hsend
            cases h
            exact .send rfl rfl (queued_send hsend) rfl rfl
      | content ctx =>
          simp only [downloadStep] at h
          split at h
          · cases h
            exact .rest rfl rfl (by simp [WebTask.sending?])
          · cases h
            exact .rest rfl rfl (by simp [WebTask.sending?])
          · cases h

/-- **What a step does** with the channels of the contents. -/
theorem webTaskStep_contentMove (h : webTaskStep ipText s t a = some o) : ContentMove s t o := by
  cases t with
  | prepareDownload pc => exact prepareDownloadStep_contentMove h
  | download pc => exact downloadStep_contentMove h
  | cleanup ctx =>
      cases a with
      | go =>
          cases h
          exact clearStep_move rfl
      | drop => cases h
  | answered result => cases h
  | completed => cases h
  | dropped => cases h

/-- A request is answered with what its channel holds. -/
theorem noteAnswer_spec (h : webTaskStep ipText s t a = some o) {seen : DownloadSeen}
    (hseen : seen ∈ noteAnswer t o.task) :
    match seen with
    | .delivered contentTx content => s.contents[contentTx]? = some (.sent content)
    | .failed contentTx => s.contents[contentTx]? = some .dropped := by
  cases t with
  | download pc =>
      cases pc with
      | content ctx =>
          cases a with
          | drop =>
              cases h
              cases hseen
          | go =>
              simp only [webTaskStep, downloadStep] at h
              split at h
              · rename_i body hbody
                cases h
                obtain rfl := List.mem_singleton.mp hseen
                exact hbody
              · rename_i hdropped
                cases h
                obtain rfl := List.mem_singleton.mp hseen
                exact hdropped
              · cases h
      | _ => cases hseen
  | _ => cases hseen

end Moves

/-! ## §4  The invariant -/

/-- The channels of the events that the application has yet to answer. -/
def WebBridge.unanswered (s : WebBridge) : List ℕ := s.asked.map FileDownloadEvent.contentTx

/-- The shared part: the bridge has the channel of every event under the session and file that
the application will answer with, and every channel holds what was answered for it. -/
structure DownloadGlob (log : List DownloadSeen) (s : WebBridge) : Prop where
  nodup : (s.web.queued ++ s.unanswered).Nodup
  waiting : ∀ contentTx ∈ s.web.queued ++ s.unanswered,
    s.web.contents[contentTx]? = some .waiting
  pending : ∀ key contentTx, s.pendingDownloads.get? key = some contentTx ↔
    ∃ event ∈ s.asked, (event.sessionId, event.fileId) = key ∧ event.contentTx = contentTx
  sent : ∀ contentTx content, s.web.contents[contentTx]? = some (.sent content) ↔
    (contentTx, content) ∈ s.supplied
  dropped : ∀ contentTx, s.web.contents[contentTx]? = some .dropped ↔ contentTx ∈ s.refused
  delivered : ∀ contentTx content, .delivered contentTx content ∈ log →
    s.web.contents[contentTx]? = some (.sent content)
  failed : ∀ contentTx, .failed contentTx ∈ log → s.web.contents[contentTx]? = some .dropped

/-- The part of one request: its event is still its own. -/
def DownloadLoc (s : WebBridge) (t : WebTask) : Prop :=
  ∀ contentTx, t.sending? = some contentTx → s.web.contents[contentTx]? = some .waiting ∧
    contentTx ∉ s.web.queued ++ s.unanswered

/-- The part of two requests: their channels differ. -/
def DownloadApart (t u : WebTask) : Prop :=
  ∀ contentTx, t.sending? = some contentTx → u.sending? ≠ some contentTx

def webDownloads : Assertion WebBridge WebTask DownloadSeen where
  glob := DownloadGlob
  loc _ := DownloadLoc
  pair := DownloadApart

/-- Nothing changes that has to do with downloads. -/
structure SameDownloads (s s' : WebBridge) : Prop where
  contents : s'.web.contents = s.web.contents
  queued : s'.web.queued = s.web.queued
  pending : s'.pendingDownloads = s.pendingDownloads
  asked : s'.asked = s.asked
  supplied : s'.supplied = s.supplied
  refused : s'.refused = s.refused

section Invariant

variable {s s' : WebBridge} {log : List DownloadSeen} {t u : WebTask} {o : WebStep}
  {a : WebAct} {contentTx : ℕ} {ipText : PeerIp → String}

theorem SameDownloads.glob (h : SameDownloads s s') (hs : DownloadGlob log s) :
    DownloadGlob log s' := by
  have hunanswered : s'.unanswered = s.unanswered := congrArg (List.map _) h.asked
  constructor
  · rw [h.queued, hunanswered]
    exact hs.nodup
  · rw [h.queued, hunanswered, h.contents]
    exact hs.waiting
  · rw [h.pending, h.asked]
    exact hs.pending
  · rw [h.contents, h.supplied]
    exact hs.sent
  · rw [h.contents, h.refused]
    exact hs.dropped
  · rw [h.contents]
    exact hs.delivered
  · rw [h.contents]
    exact hs.failed

theorem SameDownloads.loc (h : SameDownloads s s') (hs : DownloadLoc s t) : DownloadLoc s' t := by
  have hunanswered : s'.unanswered = s.unanswered := congrArg (List.map _) h.asked
  unfold DownloadLoc
  rw [h.queued, hunanswered, h.contents]
  exact hs

theorem SameDownloads.sendDecision {decisionTx : ℕ} {answer : Oneshot Bool} :
    SameDownloads s (s.sendDecision decisionTx answer) := by
  unfold WebBridge.sendDecision
  split
  · exact ⟨rfl, rfl, rfl, rfl, rfl, rfl⟩
  · exact ⟨rfl, rfl, rfl, rfl, rfl, rfl⟩

theorem SameDownloads.trans {s'' : WebBridge} (h : SameDownloads s s')
    (h' : SameDownloads s' s'') : SameDownloads s s'' where
  contents := h'.contents.trans h.contents
  queued := h'.queued.trans h.queued
  pending := h'.pending.trans h.pending
  asked := h'.asked.trans h.asked
  supplied := h'.supplied.trans h.supplied
  refused := h'.refused.trans h.refused

theorem sameDownloads_respondPrepareDownload {sessionId : String} {accept : Bool} :
    SameDownloads s (s.respondPrepareDownload sessionId accept) := by
  unfold WebBridge.respondPrepareDownload
  split
  · exact ⟨rfl, rfl, rfl, rfl, rfl, rfl⟩
  · have htaken : SameDownloads s { s with
        pendingDownloadDecisions := s.pendingDownloadDecisions.filter fun k _ => k ≠ sessionId } :=
      ⟨rfl, rfl, rfl, rfl, rfl, rfl⟩
    exact htaken.trans .sendDecision

/-- An offer is no download. -/
theorem sameDownloads_prepareDownload {ip : PeerIp} {sessionId : String}
    {userAgent : Option String} {decisionTx : ℕ} :
    SameDownloads s (s.handleWebEvent (.prepareDownload ip sessionId userAgent decisionTx)) := by
  have hreplaced : SameDownloads s (s.dropReplacedDecision sessionId) := by
    unfold WebBridge.dropReplacedDecision
    split
    · exact .sendDecision
    · exact ⟨rfl, rfl, rfl, rfl, rfl, rfl⟩
  exact hreplaced.trans ⟨rfl, rfl, rfl, rfl, rfl, rfl⟩

/-! ### Steps of a request -/

theorem getElem?_append_waiting {contents : List (Oneshot FileContent)} {n : ℕ}
    {answer : Oneshot FileContent} (hanswer : answer ≠ .waiting) :
    (contents ++ [.waiting])[n]? = some answer ↔ contents[n]? = some answer := by
  by_cases hn : n < contents.length
  · rw [List.getElem?_append_left hn]
  · rw [List.getElem?_eq_none (Nat.not_lt.mp hn), List.getElem?_append_right (Nat.not_lt.mp hn)]
    refine iff_of_false (fun h => ?_) nofun
    have hmem := List.mem_of_getElem? h
    exact hanswer (List.mem_singleton.mp hmem)

theorem lt_of_waiting {contents : List (Oneshot FileContent)} {n : ℕ}
    (h : contents[n]? = some .waiting) : n < contents.length :=
  (List.getElem?_eq_some_iff.mp h).1

/-- **The shared part** after a step of a request. -/
theorem DownloadGlob.task (hs : DownloadGlob log s) (ht : DownloadLoc s t)
    (h : webTaskStep ipText s.web t a = some o) :
    DownloadGlob (log ++ noteAnswer t o.task) { s with web := o.shared } := by
  have hmove := webTaskStep_contentMove h
  have hcontents : ∀ (n : ℕ) (answer : Oneshot FileContent), answer ≠ .waiting →
      (o.shared.contents[n]? = some answer ↔ s.web.contents[n]? = some answer) := by
    intro n answer hanswer
    cases hmove with
    | rest contents queued sending => rw [contents]
    | request contents queued sending spawned => rw [contents, getElem?_append_waiting hanswer]
    | send before contents queued sending spawned => rw [contents]
  have hwaiting : ∀ n : ℕ, s.web.contents[n]? = some .waiting →
      o.shared.contents[n]? = some .waiting := by
    intro n hn
    cases hmove with
    | rest contents queued sending => rwa [contents]
    | request contents queued sending spawned =>
        rw [contents, List.getElem?_append_left (lt_of_waiting hn)]
        exact hn
    | send before contents queued sending spawned => rwa [contents]
  refine ⟨?_, ?_, hs.pending, fun n content => ?_, fun n => ?_, fun n content hlog => ?_,
    fun n hlog => ?_⟩
  · cases hmove with
    | rest contents queued sending =>
        rw [queued]
        exact hs.nodup
    | request contents queued sending spawned =>
        rw [queued]
        exact hs.nodup
    | send before contents queued sending spawned =>
        rw [queued, List.append_assoc]
        exact List.nodup_middle.mpr (List.nodup_cons.mpr ⟨(ht _ before).2, hs.nodup⟩)
  · intro n hn
    cases hmove with
    | rest contents queued sending =>
        rw [queued] at hn
        exact hwaiting n (hs.waiting n hn)
    | request contents queued sending spawned =>
        rw [queued] at hn
        exact hwaiting n (hs.waiting n hn)
    | send before contents queued sending spawned =>
        rw [queued, List.append_assoc] at hn
        rcases List.mem_cons.mp (List.perm_middle.mem_iff.mp hn) with rfl | hn
        · exact hwaiting _ (ht _ before).1
        · exact hwaiting n (hs.waiting n hn)
  · exact (hcontents n (.sent content) nofun).trans (hs.sent n content)
  · exact (hcontents n .dropped nofun).trans (hs.dropped n)
  · refine (hcontents n (.sent content) nofun).mpr ?_
    rcases List.mem_append.mp hlog with hlog | hlog
    · exact hs.delivered n content hlog
    · exact noteAnswer_spec h hlog
  · refine (hcontents n .dropped nofun).mpr ?_
    rcases List.mem_append.mp hlog with hlog | hlog
    · exact hs.failed n hlog
    · exact noteAnswer_spec h hlog

/-- What a request that moved, and what it started, have to send. -/
theorem ContentMove.loc {s : WebBridge} (h : ContentMove s.web t o) (hs : DownloadGlob log s) :
    ∀ u ∈ o.task :: o.spawned, DownloadLoc { s with web := o.shared } u := by
  cases h with
  | rest contents queued sending =>
      intro u hu n hn
      rw [sending u hu] at hn
      cases hn
  | request contents queued sending spawned =>
      intro u hu n hn
      rw [spawned] at hu
      rw [List.mem_singleton.mp hu, sending] at hn
      obtain rfl := Option.some.inj hn
      show o.shared.contents[_]? = _ ∧ _ ∉ o.shared.queued ++ s.unanswered
      rw [contents, queued]
      refine ⟨by simp, fun hmem => ?_⟩
      exact absurd (lt_of_waiting (hs.waiting _ hmem)) (Nat.lt_irrefl _)
  | send before contents queued sending spawned =>
      intro u hu n hn
      rw [spawned] at hu
      rw [List.mem_singleton.mp hu, sending] at hn
      cases hn

/-- What the other requests have to send stays theirs. -/
theorem ContentMove.frame {s : WebBridge} (h : ContentMove s.web t o) (hu : DownloadLoc s u)
    (hapart : DownloadApart t u) : DownloadLoc { s with web := o.shared } u := by
  intro n hn
  obtain ⟨hwaiting, hnot⟩ := hu n hn
  show o.shared.contents[n]? = _ ∧ n ∉ o.shared.queued ++ s.unanswered
  cases h with
  | rest contents queued sending =>
      rw [contents, queued]
      exact ⟨hwaiting, hnot⟩
  | request contents queued sending spawned =>
      rw [contents, queued, List.getElem?_append_left (lt_of_waiting hwaiting)]
      exact ⟨hwaiting, hnot⟩
  | send before contents queued sending spawned =>
      rw [contents, queued, List.append_assoc]
      refine ⟨hwaiting, fun hmem => ?_⟩
      rcases List.mem_cons.mp (List.perm_middle.mem_iff.mp hmem) with rfl | hmem
      · exact hapart _ before hn
      · exact hnot hmem

/-- A channel that was just opened is nobody else's. -/
theorem ContentMove.apart {s : WebBridge} (h : ContentMove s.web t o) (hu : DownloadLoc s u) :
    ∀ v ∈ o.task :: o.spawned, DownloadApart v u := by
  intro v hv n hn hother
  cases h with
  | rest contents queued sending =>
      rw [sending v hv] at hn
      cases hn
  | request contents queued sending spawned =>
      rw [spawned] at hv
      rw [List.mem_singleton.mp hv, sending] at hn
      obtain rfl := Option.some.inj hn
      exact absurd (lt_of_waiting (hu _ hother).1) (Nat.lt_irrefl _)
  | send before contents queued sending spawned =>
      rw [spawned] at hv
      rw [List.mem_singleton.mp hv, sending] at hn
      cases hn

theorem ContentMove.fork {s : WebPageState} (h : ContentMove s t o) :
    (o.task :: o.spawned).Pairwise DownloadApart := by
  cases h with
  | rest contents queued sending =>
      refine List.pairwise_of_forall_mem_list fun u hu v _ n hn => ?_
      rw [sending u hu] at hn
      cases hn
  | request contents queued sending spawned =>
      rw [spawned]
      exact List.pairwise_singleton _ _
  | send before contents queued sending spawned =>
      rw [spawned]
      exact List.pairwise_singleton _ _

/-! ### Steps of the bridge and of the application -/

/-- The state after the bridge has taken the event of a download. -/
def WebBridge.taken (s : WebBridge) (queue : List WebSendEvent) (event : FileDownloadEvent) :
    WebBridge :=
  { s with
    web := { s.web with events := { s.web.events with queue } }
    pendingDownloads := s.pendingDownloads.insert (event.sessionId, event.fileId) event.contentTx
    asked := s.asked ++ [event] }

/-- The event goes from the queue to the application. -/
theorem taken_perm {sessionId fileId : String} {file : FileDto} {queue : List WebSendEvent}
    (hqueue : s.web.events.queue = .fileDownload sessionId fileId file contentTx :: queue) :
    ((s.taken queue ⟨sessionId, fileId, file, contentTx⟩).web.queued ++
      (s.taken queue ⟨sessionId, fileId, file, contentTx⟩).unanswered).Perm
      (s.web.queued ++ s.unanswered) := by
  have hqueued : s.web.queued = contentTx :: queue.filterMap WebSendEvent.contentTx? := by
    unfold WebPageState.queued
    rw [hqueue]
    rfl
  have hunanswered : (s.taken queue ⟨sessionId, fileId, file, contentTx⟩).unanswered =
      s.unanswered ++ [contentTx] := List.map_append
  rw [hqueued, hunanswered, ← List.append_assoc]
  exact List.perm_append_comm

/-- **The shared part** after the bridge has taken an event, while nothing is pending under its
session and file. -/
theorem DownloadGlob.take {sessionId fileId : String} {file : FileDto}
    {queue : List WebSendEvent} (hs : DownloadGlob log s)
    (hqueue : s.web.events.queue = .fileDownload sessionId fileId file contentTx :: queue)
    (hpending : s.pendingDownloads.get? (sessionId, fileId) = none) :
    DownloadGlob log (s.taken queue ⟨sessionId, fileId, file, contentTx⟩) := by
  have hperm := taken_perm hqueue
  refine ⟨hperm.nodup_iff.mpr hs.nodup, fun n hn => hs.waiting n (hperm.mem_iff.mp hn),
    fun key n => ?_, hs.sent, hs.dropped, hs.delivered, hs.failed⟩
  show (s.pendingDownloads.insert (sessionId, fileId) contentTx).get? key = some n ↔ _
  rw [AssocMap.get?_insert]
  split_ifs with hkey
  · constructor
    · intro heq
      exact ⟨_, List.mem_append_right _ (List.mem_singleton_self _), hkey.symm,
        Option.some.inj heq⟩
    · rintro ⟨event, hevent, hsame, rfl⟩
      rcases List.mem_append.mp hevent with hevent | hevent
      · have hold := (hs.pending key event.contentTx).mpr ⟨event, hevent, hsame, rfl⟩
        rw [hkey, hpending] at hold
        cases hold
      · rw [List.mem_singleton.mp hevent]
  · rw [hs.pending]
    constructor
    · rintro ⟨event, hevent, hsame⟩
      exact ⟨event, List.mem_append_left _ hevent, hsame⟩
    · rintro ⟨event, hevent, hsame⟩
      rcases List.mem_append.mp hevent with hevent | hevent
      · exact ⟨event, hevent, hsame⟩
      · rw [List.mem_singleton.mp hevent] at hsame
        exact absurd hsame.1.symm hkey

theorem exists_split_of_getElem? {α : Type} {xs : List α} {i : ℕ} {x : α} (h : xs[i]? = some x) :
    ∃ before after, xs = before ++ x :: after ∧ xs.eraseIdx i = before ++ after := by
  obtain ⟨hi, rfl⟩ := List.getElem?_eq_some_iff.mp h
  refine ⟨xs.take i, xs.drop (i + 1), ?_, List.eraseIdx_eq_take_drop_succ _ _⟩
  rw [List.getElem_cons_drop, List.take_append_drop]

/-- What the channel of an event becomes when the event is answered. -/
def answerOf : Option FileContent → Oneshot FileContent
  | some content => .sent content
  | none => .dropped

theorem respondFileDownload_eq {sessionId fileId : String} {content : Option FileContent}
    (hget : s.pendingDownloads.get? (sessionId, fileId) = some contentTx)
    (hwaiting : s.web.contents[contentTx]? = some .waiting) :
    s.respondFileDownload sessionId fileId content = { s with
      web := { s.web with contents := s.web.contents.set contentTx (answerOf content) }
      pendingDownloads := s.pendingDownloads.filter fun k _ => k ≠ (sessionId, fileId) } := by
  unfold WebBridge.respondFileDownload WebBridge.sendContent resolve
  simp only [hget, hwaiting]
  cases content with
  | none => rfl
  | some content => rfl

theorem failFileDownload_eq {sessionId fileId : String} :
    s.failFileDownload sessionId fileId = s.respondFileDownload sessionId fileId none := rfl

theorem getElem?_set_iff {contents : List (Oneshot FileContent)} {n : ℕ}
    {answer : Oneshot FileContent} (hwaiting : contents[contentTx]? = some .waiting)
    (value : Oneshot FileContent) (hvalue : value ≠ .waiting) :
    (contents.set contentTx answer)[n]? = some value ↔
      contents[n]? = some value ∨ n = contentTx ∧ answer = value := by
  by_cases hn : n = contentTx
  · subst hn
    rw [List.getElem?_set_self (lt_of_waiting hwaiting), hwaiting]
    constructor
    · intro h
      exact .inr ⟨rfl, Option.some.inj h⟩
    · rintro (h | ⟨-, rfl⟩)
      · exact absurd (Option.some.inj h).symm hvalue
      · rfl
  · rw [List.getElem?_set_ne (Ne.symm hn)]
    exact (or_iff_left fun h => hn h.1).symm

/-- The events without the one that is answered, and their channels. -/
theorem DownloadGlob.erase {i : ℕ} {event : FileDownloadEvent} (hs : DownloadGlob log s)
    (hi : s.asked[i]? = some event) :
    event.contentTx ∉ s.web.queued ++ (s.asked.eraseIdx i).map FileDownloadEvent.contentTx ∧
      (s.web.queued ++ (s.asked.eraseIdx i).map FileDownloadEvent.contentTx).Nodup ∧
      ∀ e, e ∈ s.asked ↔ e = event ∨ e ∈ s.asked.eraseIdx i := by
  obtain ⟨before, after, hasked, herase⟩ := exists_split_of_getElem? hi
  have hrest : s.unanswered.Perm
      (event.contentTx :: (before ++ after).map FileDownloadEvent.contentTx) := by
    unfold WebBridge.unanswered
    rw [hasked]
    exact List.perm_middle.map FileDownloadEvent.contentTx
  have hnodup := ((hrest.append_left _).trans List.perm_middle).nodup_iff.mp hs.nodup
  rw [List.nodup_cons] at hnodup
  rw [herase]
  refine ⟨hnodup.1, hnodup.2, fun e => ?_⟩
  rw [hasked, List.perm_middle.mem_iff, List.mem_cons]

/-- The entry of the event is the one that is removed. -/
theorem DownloadGlob.pending_erase {i : ℕ} {event : FileDownloadEvent}
    (hs : DownloadGlob log s) (hi : s.asked[i]? = some event) (key : String × String) (n : ℕ) :
    (s.pendingDownloads.filter fun k _ => k ≠ (event.sessionId, event.fileId)).get? key =
      some n ↔ ∃ e ∈ s.asked.eraseIdx i, (e.sessionId, e.fileId) = key ∧ e.contentTx = n := by
  obtain ⟨hnot, -, hmem⟩ := hs.erase hi
  have hget := (hs.pending _ _).mpr ⟨event, List.mem_of_getElem? hi, rfl, rfl⟩
  rw [AssocMap.get?_filter, Option.filter_eq_some_iff, hs.pending]
  constructor
  · rintro ⟨⟨e, he, rfl, rfl⟩, hkey⟩
    rcases (hmem e).mp he with rfl | he
    · exact absurd rfl (of_decide_eq_true hkey)
    · exact ⟨e, he, rfl, rfl⟩
  · rintro ⟨e, he, rfl, rfl⟩
    have he' := (hmem e).mpr (.inr he)
    refine ⟨⟨e, he', rfl, rfl⟩, decide_eq_true fun hkey => hnot ?_⟩
    -- two events of one session and file have one channel
    have hsame := (hs.pending _ _).mpr ⟨e, he', hkey, rfl⟩
    rw [hget] at hsame
    rw [Option.some.inj hsame]
    exact List.mem_append_right _ (List.mem_map_of_mem he)

/-- **The shared part** after the application has answered an event. -/
theorem DownloadGlob.answer {i : ℕ} {event : FileDownloadEvent} (hs : DownloadGlob log s)
    (hi : s.asked[i]? = some event) (content : Option FileContent) :
    DownloadGlob log ((s.respondFileDownload event.sessionId event.fileId content).note i
      event.contentTx content) := by
  have hmem : event ∈ s.asked := List.mem_of_getElem? hi
  have hget := (hs.pending _ _).mpr ⟨event, hmem, rfl, rfl⟩
  have hwaiting : s.web.contents[event.contentTx]? = some .waiting :=
    hs.waiting _ (List.mem_append_right _ (List.mem_map_of_mem hmem))
  obtain ⟨hnot, hnodup, hasked⟩ := hs.erase hi
  have hkept : ∀ n ∈ s.web.queued ++ (s.asked.eraseIdx i).map FileDownloadEvent.contentTx,
      (s.web.contents.set event.contentTx (answerOf content))[n]? = some .waiting := by
    intro n hn
    have hne : event.contentTx ≠ n := by
      rintro rfl
      exact hnot hn
    rw [List.getElem?_set_ne hne]
    refine hs.waiting n ?_
    rcases List.mem_append.mp hn with hn | hn
    · exact List.mem_append_left _ hn
    · obtain ⟨e, he, rfl⟩ := List.mem_map.mp hn
      exact List.mem_append_right _ (List.mem_map_of_mem ((hasked e).mpr (.inr he)))
  have hdelivered : ∀ n c, .delivered n c ∈ log →
      (s.web.contents.set event.contentTx (answerOf content))[n]? = some (.sent c) :=
    fun n c hlog => (getElem?_set_iff hwaiting (.sent c) nofun).mpr (.inl (hs.delivered n c hlog))
  have hfailed : ∀ n, .failed n ∈ log →
      (s.web.contents.set event.contentTx (answerOf content))[n]? = some .dropped :=
    fun n hlog => (getElem?_set_iff hwaiting .dropped nofun).mpr (.inl (hs.failed n hlog))
  rw [respondFileDownload_eq hget hwaiting]
  cases content with
  | some content =>
      refine ⟨hnodup, hkept, hs.pending_erase hi, fun n c => ?_, fun n => ?_, hdelivered, hfailed⟩
      · refine (getElem?_set_iff hwaiting (.sent c) nofun).trans ?_
        show _ ↔ (n, c) ∈ s.supplied ++ [(event.contentTx, content)]
        rw [hs.sent, List.mem_append, List.mem_singleton, Prod.mk.injEq]
        refine or_congr_right (and_congr_right fun _ => ⟨fun heq => ?_, fun heq => ?_⟩)
        · exact (Oneshot.sent.inj heq).symm
        · rw [heq]
          rfl
      · refine (getElem?_set_iff hwaiting .dropped nofun).trans ?_
        rw [hs.dropped]
        exact or_iff_left fun h => nomatch h.2
  | none =>
      refine ⟨hnodup, hkept, hs.pending_erase hi, fun n c => ?_, fun n => ?_, hdelivered, hfailed⟩
      · refine (getElem?_set_iff hwaiting (.sent c) nofun).trans ?_
        rw [hs.sent]
        exact or_iff_left fun h => nomatch h.2
      · refine (getElem?_set_iff hwaiting .dropped nofun).trans ?_
        show _ ↔ n ∈ s.refused ++ [event.contentTx]
        rw [hs.dropped, List.mem_append, List.mem_singleton]
        exact or_congr_right (and_iff_left rfl)

theorem SameDownloads.takePrepare {queue : List WebSendEvent} {ip : PeerIp} {sessionId : String}
    {userAgent : Option String} {decisionTx : ℕ} (hqueue : s.web.events.queue =
      .prepareDownload ip sessionId userAgent decisionTx :: queue) :
    SameDownloads s
      { s with web := { s.web with events := { s.web.events with queue } } } where
  contents := rfl
  queued := by
    unfold WebPageState.queued
    rw [hqueue]
    rfl
  pending := rfl
  asked := rfl
  supplied := rfl
  refused := rfl

/-- What a request has to send is not answered with the event of another one. -/
theorem DownloadLoc.answer {i : ℕ} {event : FileDownloadEvent} (hs : DownloadGlob log s)
    (hu : DownloadLoc s u) (hi : s.asked[i]? = some event) (content : Option FileContent) :
    DownloadLoc ((s.respondFileDownload event.sessionId event.fileId content).note i
      event.contentTx content) u := by
  intro n hn
  obtain ⟨hwaiting, hnot⟩ := hu n hn
  have hmem : event ∈ s.asked := List.mem_of_getElem? hi
  have hget := (hs.pending _ _).mpr ⟨event, hmem, rfl, rfl⟩
  have hevent := List.mem_append_right s.web.queued
    (List.mem_map_of_mem (f := FileDownloadEvent.contentTx) hmem)
  have hne : event.contentTx ≠ n := by
    rintro rfl
    exact hnot hevent
  have hcontents : (s.web.contents.set event.contentTx (answerOf content))[n]? =
      some .waiting := by
    rw [List.getElem?_set_ne hne]
    exact hwaiting
  have hfewer : n ∉ s.web.queued ++ (s.asked.eraseIdx i).map FileDownloadEvent.contentTx := by
    intro hmem
    refine hnot ?_
    rcases List.mem_append.mp hmem with hmem | hmem
    · exact List.mem_append_left _ hmem
    · obtain ⟨e, he, rfl⟩ := List.mem_map.mp hmem
      exact List.mem_append_right _
        (List.mem_map_of_mem (((hs.erase hi).2.2 e).mpr (.inr he)))
  rw [respondFileDownload_eq hget (hs.waiting _ hevent)]
  cases content with
  | some content => exact ⟨hcontents, hfewer⟩
  | none => exact ⟨hcontents, hfewer⟩

/-- The environment, with what it does to the shared part, to a request, and the requests that
arrive. -/
theorem bridgeEnv_stable {p : BridgePool} {e : BridgeEnv} {ts : List WebTask}
    (hp : webDownloads.Holds p) (hok : NoOverlap p (.env e))
    (h : bridgeEnvStep p.shared e = some (s', ts)) :
    DownloadGlob p.log s' ∧ (∀ u, DownloadLoc p.shared u → DownloadLoc s' u) ∧
      ∀ u ∈ ts, u.sending? = none := by
  have hs : DownloadGlob p.log p.shared := hp.glob
  have hnone : ∀ u ∈ ([] : List WebTask), u.sending? = none := fun u hu =>
    absurd hu List.not_mem_nil
  cases e with
  | prepareDownload clientInfo query userAgent =>
      cases h
      exact ⟨hs, fun u hu => hu, by simp [WebTask.sending?]⟩
  | download clientInfo query =>
      cases h
      exact ⟨hs, fun u hu => hu, by simp [WebTask.sending?]⟩
  | takeEvent =>
      simp only [bridgeEnvStep] at h
      split at h
      · cases h
      · rename_i event queue hqueue
        cases event with
        | prepareDownload ip sessionId userAgent decisionTx =>
            cases h
            have hsame := (SameDownloads.takePrepare hqueue).trans
              (@sameDownloads_prepareDownload _ ip sessionId userAgent decisionTx)
            exact ⟨hsame.glob hs, fun u hu => hsame.loc hu, hnone⟩
        | fileDownload sessionId fileId file contentTx =>
            have hpending : p.shared.pendingDownloads.get? (sessionId, fileId) = none := by
              have hoverlaps : p.shared.overlaps = false := hok
              unfold WebBridge.overlaps at hoverlaps
              rw [hqueue] at hoverlaps
              exact Option.isNone_iff_eq_none.mp (by simpa using hoverlaps)
            have htaken : s' = p.shared.taken queue ⟨sessionId, fileId, file, contentTx⟩ := by
              simp only [WebBridge.handleWebEvent, WebBridge.dropReplaced, hpending] at h
              exact (congrArg Prod.fst (Option.some.inj h)).symm
            obtain rfl : ts = [] := (congrArg Prod.snd (Option.some.inj h)).symm
            rw [htaken]
            refine ⟨hs.take hqueue hpending, fun u hu n hn => ?_, hnone⟩
            rw [(taken_perm hqueue).mem_iff]
            exact hu n hn
  | decide sessionId accept =>
      cases h
      exact ⟨sameDownloads_respondPrepareDownload.glob hs,
        fun u hu => sameDownloads_respondPrepareDownload.loc hu, hnone⟩
  | respond i content =>
      obtain ⟨event, hi, heq⟩ := Option.map_eq_some_iff.mp h
      cases heq
      exact ⟨hs.answer hi content, fun u hu => hu.answer hs hi content, hnone⟩
  | fail i =>
      obtain ⟨event, hi, heq⟩ := Option.map_eq_some_iff.mp h
      cases heq
      rw [failFileDownload_eq]
      exact ⟨hs.answer hi none, fun u hu => hu.answer hs hi none, hnone⟩

end Invariant

theorem webDownloads_stable (ipText : PeerIp → String) :
    webDownloads.Stable (bridgeMachine ipText) NoOverlap where
  symm := fun {t u} h n hn ht => h n ht hn
  own := by
    intro p i a t o hp _ ht ho
    obtain ⟨o, hstep, rfl⟩ := Option.map_eq_some_iff.mp ho
    exact ⟨hp.glob.task (hp.loc ht) hstep, (webTaskStep_contentMove hstep).loc hp.glob⟩
  frame := by
    intro p i j a t u o hp _ ht ho hji hu
    obtain ⟨o, hstep, rfl⟩ := Option.map_eq_some_iff.mp ho
    exact (webTaskStep_contentMove hstep).frame (hp.loc hu) (hp.pair (Ne.symm hji) ht hu)
  apart := by
    intro p i j a t u o hp _ ht ho _ hu
    obtain ⟨o, hstep, rfl⟩ := Option.map_eq_some_iff.mp ho
    exact (webTaskStep_contentMove hstep).apart (hp.loc hu)
  fork := by
    intro p i a t o _ _ _ ho
    obtain ⟨o, hstep, rfl⟩ := Option.map_eq_some_iff.mp ho
    exact (webTaskStep_contentMove hstep).fork
  env := by
    intro p e s ts hp hok he
    obtain ⟨hglob, hloc, hnew⟩ := bridgeEnv_stable hp hok he
    have hidle : ∀ u ∈ ts, ∀ n, u.sending? ≠ some n := fun u hu n hn => by
      rw [hnew u hu] at hn
      cases hn
    exact ⟨hglob, fun {i u} hu => hloc u (hp.loc hu), fun u hu n hn => absurd hn (hidle u hu n),
      fun {i u} _ v hv n hn => absurd hn (hidle v hv n),
      List.pairwise_of_forall_mem_list fun u hu v _ n hn => absurd hn (hidle u hu n)⟩

/-! ## §5  Every run -/

/-- **Each request gets its own content**: what the application supplied for an event is in the
channel of the request it came from, a request is answered with what was supplied for it, and
fails only when the application had nothing for it. -/
structure OwnContents (p : BridgePool) : Prop where
  supplied : ∀ contentTx content, (contentTx, content) ∈ p.shared.supplied →
    p.shared.web.contents[contentTx]? = some (.sent content)
  delivered : ∀ contentTx content, .delivered contentTx content ∈ p.log →
    (contentTx, content) ∈ p.shared.supplied
  failed : ∀ contentTx, .failed contentTx ∈ p.log → contentTx ∈ p.shared.refused

/-- **Web downloads are answered for themselves** in every run in which the bridge takes no
request while another one for the same session and file is pending. -/
theorem own_contents {ipText : PeerIp → String} {files : AssocMap String FileDto}
    {pin : Option String} {cap : ℕ} {p : BridgePool}
    (hrun : Run (bridgeStep ipText) NoOverlap (.init files pin cap) p) : OwnContents p := by
  have hstart : DownloadGlob [] (BridgePool.init files pin cap).shared := by
    refine ⟨List.nodup_nil, nofun, fun key n => ?_, fun n content => ?_, fun n => ?_, nofun, nofun⟩
    · exact iff_of_false nofun fun ⟨event, hevent, _⟩ => nomatch hevent
    · exact iff_of_false nofun nofun
    · exact iff_of_false nofun nofun
  have hp := ((webDownloads_stable ipText).run (Assertion.holds_nil hstart) hrun).glob
  exact
    { supplied := fun n content hn => (hp.sent n content).mpr hn
      delivered := fun n content hn => (hp.sent n content).mp (hp.delivered n content hn)
      failed := fun n hn => (hp.dropped n).mp (hp.failed n hn) }

/-! ## §6  Two requests for one file -/

namespace Sample

def bridge : BridgePool := .init offered none 16

/-- The browser is accepted. -/
def admitted : List BridgeLabel :=
  [.env (.prepareDownload browser [] none), .task 0 .go, .task 0 .go, .task 0 .go,
    .env .takeEvent, .env (.decide "v4-7" true), .task 0 .go, .task 0 .go, .task 0 .go]

/-- It asks for the file in task `i`, until the event is sent. -/
def fetchFile (i : ℕ) : List BridgeLabel :=
  [.env (.download browser [("sessionId", "v4-7"), ("fileId", "1")]), .task i .go, .task i .go,
    .task i .go]

/-- The file is fetched, and then once more. -/
def fetchedTwice : List BridgeLabel :=
  admitted ++ fetchFile 1 ++ [.env .takeEvent, .env (.respond 0 (some [1])), .task 1 .go] ++
    fetchFile 2 ++ [.env .takeEvent, .env (.respond 0 (some [2])), .task 2 .go]

/-- The second request arrives before the first one is answered; the application answers the
first event. -/
def fetchedAtOnce : List BridgeLabel :=
  admitted ++ fetchFile 1 ++ fetchFile 2 ++ [.env .takeEvent, .env .takeEvent,
    .env (.respond 0 (some [1])), .task 1 .go, .task 2 .go]

end Sample

/-- One request after the other, each with its own content. -/
theorem own_contents_twice : ∃ p, Run (bridgeStep Sample.ipText) NoOverlap Sample.bridge p ∧
    p.log = [.delivered 0 [1], .delivered 1 [2]] ∧ OwnContents p := by
  obtain ⟨p, hp, hcheck⟩ := exists_of_exec_any (bridgeStep Sample.ipText) Sample.bridge
    Sample.fetchedTwice (fun p => decide (p.log = [.delivered 0 [1], .delivered 1 [2]]))
    (by decide)
  have hrun : Run (bridgeStep Sample.ipText) NoOverlap Sample.bridge p :=
    run_of_exec hp (by decide)
  exact ⟨p, hrun, of_decide_eq_true hcheck, own_contents hrun⟩

/-- The first request fails, and the second one gets what was meant for the first. -/
theorem other_content : ∃ p, Reach (bridgeStep Sample.ipText) Sample.bridge p ∧
    p.log = [.failed 0, .delivered 1 [1]] ∧ ¬ OwnContents p := by
  obtain ⟨p, hp, hcheck⟩ := exists_of_exec_any (bridgeStep Sample.ipText) Sample.bridge
    Sample.fetchedAtOnce (fun p => p.log = [.failed 0, .delivered 1 [1]] &&
      decide (p.shared.refused = [])) (by decide)
  rw [Bool.and_eq_true, decide_eq_true_eq, decide_eq_true_eq] at hcheck
  refine ⟨p, reach_of_exec hp, hcheck.1, fun h => ?_⟩
  have hrefused := h.failed 0 (by rw [hcheck.1]; exact List.mem_cons_self)
  rw [hcheck.2] at hrefused
  cases hrefused

end WebSend

end FireBoxTransfer

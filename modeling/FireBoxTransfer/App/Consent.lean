import FireBoxTransfer.App.ReceiveController
import FireBoxTransfer.Bridge.Answers

/-!
# User consent

A request is accepted by the user, who looks at a receive page, or by a quick
save rule. Between that and the decision that leaves for the server lies at
most one await, the permission dialog, after which the controller reads the
current session again.
-/

namespace FireBoxTransfer

open TaskPool Runs

/-! ## §1  Turns -/

/-- A decision that rests on the consent it was sent with: it names the
session looked at, and if it accepts a file, the names were chosen for that
session and its request was accepted. -/
structure Dispatched.Sound (consents : List String) (d : Dispatched) : Prop where
  session : d.config.sessionId = d.consent.lookedAt
  selection : d.config.fileNameMap.isEmpty = false →
    d.consent.selectionOf = some d.consent.lookedAt
  consented : d.config.fileNameMap.isEmpty = false → d.consent.lookedAt ∈ consents

/-- An accept that waits for the permission dialog. -/
structure Consent.Given (consents : List String) (consent : Consent) : Prop where
  selection : consent.selectionOf = some consent.lookedAt
  consented : consent.lookedAt ∈ consents

/-- What a turn of the controller may leave behind. -/
structure Turn (c c' : ReceiveController) : Prop where
  consents : c.consents ⊆ c'.consents
  permission : ∀ consent names, Handler.permission consent names ∈ c'.handlers →
    Handler.permission consent names ∈ c.handlers ∨ consent.Given c'.consents
  dispatched : ∀ d ∈ c'.dispatched, d ∈ c.dispatched ∨ d.Sound c'.consents
  outbox : ∀ config, .prepareUploadDecision (.accept config) ∈ c'.outbox →
    .prepareUploadDecision (.accept config) ∈ c.outbox ∨
      (config.fileNameMap.isEmpty = false → config.sessionId ∈ c'.consents)

theorem Dispatched.Sound.mono {consents consents' : List String} {d : Dispatched}
    (h : d.Sound consents) (hsub : consents ⊆ consents') : d.Sound consents' :=
  ⟨h.session, h.selection, fun hne => hsub (h.consented hne)⟩

theorem Consent.Given.mono {consents consents' : List String} {consent : Consent}
    (h : consent.Given consents) (hsub : consents ⊆ consents') : consent.Given consents' :=
  ⟨h.selection, hsub h.consented⟩

section Turns

variable {c c' c'' : ReceiveController}

theorem Turn.trans (h : Turn c c') (h' : Turn c' c'') : Turn c c'' where
  consents := List.Subset.trans h.consents h'.consents
  permission consent names hm := by
    rcases h'.permission consent names hm with hm | hg
    · rcases h.permission consent names hm with hm | hg
      · exact .inl hm
      · exact .inr (hg.mono h'.consents)
    · exact .inr hg
  dispatched d hm := by
    rcases h'.dispatched d hm with hm | hs
    · rcases h.dispatched d hm with hm | hs
      · exact .inl hm
      · exact .inr (hs.mono h'.consents)
    · exact .inr hs
  outbox config hm := by
    rcases h'.outbox config hm with hm | hs
    · rcases h.outbox config hm with hm | hs
      · exact .inl hm
      · exact .inr fun hne => h'.consents (hs hne)
    · exact .inr hs

/-- A turn that sends nothing and neither suspends nor accepts. -/
structure Silence (c c' : ReceiveController) : Prop where
  consents : c'.consents = c.consents
  handlers : c'.handlers ⊆ c.handlers
  dispatched : c'.dispatched = c.dispatched
  outbox : c'.outbox = c.outbox

theorem Silence.turn (h : Silence c c') : Turn c c' where
  consents := by rw [h.consents]; exact List.Subset.refl _
  permission _ _ hm := .inl (h.handlers hm)
  dispatched d hm := .inl (h.dispatched ▸ hm)
  outbox _ hm := .inl (h.outbox ▸ hm)

theorem Turn.refl : Turn c c :=
  Silence.turn ⟨rfl, List.Subset.refl _, rfl, rfl⟩

theorem Turn.ite {b : Prop} [Decidable b] (h : Turn c c') (h' : Turn c c'') :
    Turn c (if b then c' else c'') := by
  split
  · exact h
  · exact h'

/-! ## §2  Turns of the controller -/

theorem closeSession_silence (c : ReceiveController) : Silence c c.closeSession := by
  unfold ReceiveController.closeSession
  split <;> exact ⟨rfl, List.Subset.refl _, rfl, rfl⟩

theorem suspend_turn {h : Handler} (hh : ∀ consent names, h ≠ .permission consent names) :
    Turn c (c.suspend h) where
  consents := List.Subset.refl _
  permission consent names hm := by
    rcases List.mem_append.mp hm with hm | hm
    · exact .inl hm
    · exact absurd (List.mem_singleton.mp hm).symm (hh consent names)
  dispatched _ hm := .inl hm
  outbox _ hm := .inl hm

theorem dispatch_turn {task : HttpServerTask}
    (ht : ∀ config, task ≠ .prepareUploadDecision (.accept config)) :
    Turn c (c.dispatch task) where
  consents := List.Subset.refl _
  permission _ _ hm := .inl hm
  dispatched _ hm := .inl hm
  outbox config hm := by
    rcases List.mem_append.mp hm with hm | hm
    · exact .inl hm
    · exact absurd (List.mem_singleton.mp hm).symm (ht config)

theorem sendAccept_turn {platform : Platform} {consent : Consent}
    {session : ReceiveSessionState} {names : AssocMap String String}
    (hsid : session.sessionId = consent.lookedAt)
    (hgiven : names.isEmpty = false → consent.Given c.consents) :
    Turn c (c.sendAccept platform consent session names) where
  consents := List.Subset.refl _
  permission _ _ hm := .inl hm
  dispatched d hm := by
    rcases List.mem_append.mp hm with hm | hm
    · exact .inl hm
    · obtain rfl := List.mem_singleton.mp hm
      exact .inr ⟨hsid, fun hne => (hgiven hne).selection,
        fun hne => (hgiven hne).consented⟩
  outbox config hm := by
    rcases List.mem_append.mp hm with hm | hm
    · exact .inl hm
    · cases List.mem_singleton.mp hm
      refine .inr fun hne => ?_
      show session.sessionId ∈ c.consents
      rw [hsid]
      exact (hgiven hne).consented

theorem finishAccept_turn {platform : Platform} {consent : Consent}
    {names : AssocMap String String}
    (hsid : ∀ s, c.session = some s → s.sessionId = consent.lookedAt)
    (hgiven : consent.Given c.consents) : Turn c (c.finishAccept platform consent names) := by
  unfold ReceiveController.finishAccept
  split
  · exact .refl
  · rename_i s hs
    exact sendAccept_turn (hsid s hs) fun _ => hgiven

/-- An accept of the current session, if the one it is given for is the
current one. -/
theorem acceptFileRequest_turn {platform : Platform} {consent : Consent}
    {names : AssocMap String String}
    (hok : ∀ s, c.session = some s → s.status = .waiting →
      s.sessionId = consent.lookedAt ∧
        (names.isEmpty = false → consent.selectionOf = some consent.lookedAt)) :
    Turn c (c.acceptFileRequest platform consent names) := by
  unfold ReceiveController.acceptFileRequest
  split
  · exact .refl
  · rename_i s hs
    split_ifs with hwait hempty hask
    · exact .refl
    · obtain ⟨hsid, -⟩ := hok s hs (not_not.mp hwait)
      refine Turn.trans ?_ (closeSession_silence _).turn
      exact sendAccept_turn hsid fun h => by cases h
    · -- accepted, and the dialog is open
      obtain ⟨hsid, hsel⟩ := hok s hs (not_not.mp hwait)
      refine ⟨List.subset_append_left _ _, ?_, fun d hm => .inl hm, fun _ hm => .inl hm⟩
      intro consent' names' hm
      rcases List.mem_append.mp hm with hm | hm
      · exact .inl hm
      · cases List.mem_singleton.mp hm
        refine .inr ⟨hsel (by simpa using hempty), ?_⟩
        exact List.mem_append_right _ (List.mem_singleton_self _)
    · obtain ⟨hsid, hsel⟩ := hok s hs (not_not.mp hwait)
      have hmark : Turn c (c.markAccepted consent s names) :=
        ⟨List.subset_append_left _ _, fun _ _ hm => .inl hm, fun d hm => .inl hm,
          fun _ hm => .inl hm⟩
      apply hmark.trans
      apply finishAccept_turn
      · intro s' hs'
        cases hs'
        exact hsid
      · refine ⟨hsel (by simpa using hempty), ?_⟩
        exact List.mem_append_right _ (List.mem_singleton_self _)

theorem declineFileRequest_turn : Turn c c.declineFileRequest := by
  unfold ReceiveController.declineFileRequest
  split
  · exact .refl
  · split_ifs
    · exact .refl
    · exact (dispatch_turn (by simp)).trans (closeSession_silence _).turn

theorem cancelSession_turn : Turn c c.cancelSession := by
  unfold ReceiveController.cancelSession
  split
  · exact .refl
  · exact (dispatch_turn (by simp)).trans (closeSession_silence _).turn

theorem afterTray_turn {event : PrepareUploadEvent} : Turn c (c.afterTray event) := by
  unfold ReceiveController.afterTray
  split
  · exact suspend_turn (by simp)
  · exact Silence.turn ⟨rfl, List.Subset.refl _, rfl, rfl⟩

/-- The quick save rules accept the session that was just created. -/
theorem afterDirectories_turn {platform : Platform} {event : PrepareUploadEvent}
    {settings : AppSettings} {dir cacheDir : String} :
    Turn c (c.afterDirectories platform event settings dir cacheDir) := by
  unfold ReceiveController.afterDirectories
  dsimp only
  split_ifs
  · refine Turn.trans ?_ (acceptFileRequest_turn ?_)
    · exact Silence.turn ⟨rfl, List.Subset.refl _, rfl, rfl⟩
    · intro s hs _
      cases hs
      exact ⟨rfl, fun _ => rfl⟩
  · refine Turn.trans ?_ (suspend_turn (by simp))
    exact Silence.turn ⟨rfl, List.Subset.refl _, rfl, rfl⟩
  · refine Turn.trans ?_ afterTray_turn
    exact Silence.turn ⟨rfl, List.Subset.refl _, rfl, rfl⟩

theorem afterResult_turn {sid fid : String} : Turn c (c.afterResult sid fid) := by
  unfold ReceiveController.afterResult
  dsimp only
  split
  · exact Silence.turn ⟨rfl, List.Subset.refl _, rfl, rfl⟩
  · refine Turn.ite (Turn.ite ?_ ?_) ?_
    · refine Turn.trans ?_ (suspend_turn ?_)
      · exact Silence.turn ⟨rfl, List.Subset.refl _, rfl, rfl⟩
      · simp
    · exact Silence.turn ⟨rfl, List.Subset.refl _, rfl, rfl⟩
    · exact Silence.turn ⟨rfl, List.Subset.refl _, rfl, rfl⟩

theorem onFileUploadResult_turn {sid fid : String} {path : Option String} {saved : Bool}
    {error : Option String} : Turn c (c.onFileUploadResult sid fid path saved error) := by
  unfold ReceiveController.onFileUploadResult
  split
  · exact .refl
  · split
    · refine Turn.trans ?_ (suspend_turn (by simp))
      exact Silence.turn ⟨rfl, List.Subset.refl _, rfl, rfl⟩
    · refine Turn.trans ?_ afterResult_turn
      exact Silence.turn ⟨rfl, List.Subset.refl _, rfl, rfl⟩

/-- No event accepts anything. -/
theorem onEvent_turn (event : HttpServerEvent) : Turn c (c.onEvent event) := by
  cases event with
  | prepareUpload => exact (closeSession_silence c).turn.trans (suspend_turn (by simp))
  | fileUpload sid fid file =>
      simp only [ReceiveController.onEvent, ReceiveController.onFileUpload]
      split
      · exact dispatch_turn (by simp)
      · exact Silence.turn ⟨rfl, List.Subset.refl _, rfl, rfl⟩
  | fileUploadResult => exact onFileUploadResult_turn
  | sessionEnd sid reason =>
      simp only [ReceiveController.onEvent, ReceiveController.onSessionEnd]
      split
      · cases reason <;> exact Silence.turn ⟨rfl, List.Subset.refl _, rfl, rfl⟩
      · exact .refl
  | prepareUploadAborted sid =>
      simp only [ReceiveController.onEvent, ReceiveController.onPrepareUploadAborted]
      split
      · exact Silence.turn ⟨rfl, List.Subset.refl _, rfl, rfl⟩
      · exact .refl
  | register | cancelReceived => exact .refl

end Turns

/-! ## §3  The application over the stack -/

/-- The condition on a step. An answer reaches the bridge in time; the
permission dialog completes while the session that was accepted is still the
current one, or there is none; and on a receive page the user accepts the
session the page is about, with a selection made of its files. -/
def Attentive (p : App) : AppLabel → Prop
  | .stack l => InTime p.stack l
  | .resume k _ =>
      match p.controller.handlers[k]?, p.controller.session with
      | some (.permission consent _), some s => s.sessionId = consent.lookedAt
      | _, _ => True
  | .accept i =>
      match p.controller.pages[i]?, p.controller.session with
      | some ⟨some (_, sessionId)⟩, some s => s.status = .waiting → s.sessionId = sessionId
      | some ⟨none⟩, some s =>
          s.status = .waiting → p.controller.selection.isEmpty = false →
            p.controller.selectionOf = some s.sessionId
      | _, _ => True
  | _ => True

instance (p : App) (l : AppLabel) : Decidable (Attentive p l) := by
  unfold Attentive
  split
  · infer_instance
  · split <;> infer_instance
  · split <;> infer_instance
  · infer_instance

section Application

variable {X : Externals} {platform : Platform} {p p' : App}

/-- The messages of a turn are sent one after the other. -/
theorem sendAll_run (stack : Stack) (tasks : List HttpServerTask) :
    Run (stackStep X) InTime stack (tasks.foldl Stack.send stack) := by
  induction tasks generalizing stack with
  | nil => exact .refl
  | cons task tasks ih =>
      refine Run.trans ?_ (ih (stack.send task))
      cases task with
      | prepareUploadDecision a => exact Run.single (l := .answer a) trivial rfl
      | cancelSession sid => exact Run.single (l := .cancelSession sid) trivial rfl

theorem sendAll_underWay {stack : Stack} {tasks : List HttpServerTask} {a : Answer}
    (h : (tasks.foldl Stack.send stack).UnderWay a) :
    stack.UnderWay a ∨ .prepareUploadDecision a ∈ tasks := by
  induction tasks generalizing stack with
  | nil => exact .inl h
  | cons task tasks ih =>
      rcases ih h with hs | hm
      · rcases hs with hs | hs
        · rcases List.mem_append.mp hs with hs | hs
          · exact .inl (.inl hs)
          · rw [List.mem_singleton.mp hs]
            exact .inr List.mem_cons_self
        · exact .inl (.inr hs)
      · exact .inr (List.mem_cons_of_mem _ hm)

/-- What the application sends down was accepted, and so was what waits to be
sent; nothing stays in the outbox of a turn. -/
structure Accepted (p : App) : Prop where
  permission : ∀ consent names, Handler.permission consent names ∈ p.controller.handlers →
    consent.Given p.controller.consents
  dispatched : ∀ d ∈ p.controller.dispatched, d.Sound p.controller.consents
  outbox : p.controller.outbox = []
  underWay : ∀ config, p.stack.UnderWay (.accept config) →
    config.fileNameMap.isEmpty = false → config.sessionId ∈ p.controller.consents

/-- A turn from a state with the same stack below. -/
theorem Turn.accepted {stack : Stack} {c c' : ReceiveController}
    (h : Turn c c') (hp : Accepted ⟨stack, c⟩) : Accepted (App.turn ⟨stack, c⟩ c') where
  permission consent names hm := by
    rcases h.permission consent names hm with hm | hg
    · exact (hp.permission consent names hm).mono h.consents
    · exact hg
  dispatched d hm := by
    rcases h.dispatched d hm with hm | hs
    · exact (hp.dispatched d hm).mono h.consents
    · exact hs
  outbox := rfl
  underWay config hu hne := by
    rcases sendAll_underWay hu with hu | hm
    · exact h.consents (hp.underWay config hu hne)
    · rcases h.outbox config hm with hm | hs
      · rw [hp.outbox] at hm
        cases hm
      · exact hs hne

theorem turn_stack (p : App) (c : ReceiveController) :
    Run (stackStep X) InTime p.stack (p.turn c).stack :=
  sendAll_run p.stack c.outbox

/-- The accept of a user who pays attention. -/
theorem onAccept_turn {i : ℕ} {page : ReceivePage} (hok : Attentive p (.accept i))
    (hpage : p.controller.pages[i]? = some page) :
    Turn p.controller (p.controller.onAccept platform page) := by
  obtain ⟨message⟩ := page
  unfold ReceiveController.onAccept
  cases message with
  | some m =>
      apply acceptFileRequest_turn
      intro s hs hwait
      simp only [Attentive, hpage, hs] at hok
      exact ⟨hok hwait, fun h => by cases h⟩
  | none =>
      dsimp only
      split
      · exact .refl
      · rename_i s hs
        apply acceptFileRequest_turn
        intro s' hs' hwait
        obtain rfl := Option.some.inj (hs.symm.trans hs')
        simp only [Attentive, hpage, hs] at hok
        exact ⟨rfl, hok hwait⟩

/-- A resumed handler. The dialog completes for the session accepted. -/
theorem resume_turn {k : ℕ} {r : ReceiveController.Resume} {h : Handler}
    {c' : ReceiveController} (hok : Attentive p (.resume k r))
    (hk : p.controller.handlers[k]? = some h)
    (hg : ∀ consent names, h = .permission consent names →
      consent.Given p.controller.consents)
    (hr : ReceiveController.resume platform
      { p.controller with handlers := p.controller.handlers.eraseIdx k } h r = some c') :
    Turn p.controller c' := by
  have herase : Turn p.controller
      { p.controller with handlers := p.controller.handlers.eraseIdx k } :=
    Silence.turn ⟨rfl, List.eraseIdx_subset, rfl, rfl⟩
  apply herase.trans
  unfold ReceiveController.resume at hr
  split at hr
  · obtain rfl := Option.some.inj hr
    exact afterDirectories_turn
  · obtain rfl := Option.some.inj hr
    exact afterTray_turn
  · obtain rfl := Option.some.inj hr
    exact Silence.turn ⟨rfl, List.Subset.refl _, rfl, rfl⟩
  · rename_i consent names
    obtain rfl := Option.some.inj hr
    apply finishAccept_turn
    · intro s hs
      have hs : p.controller.session = some s := hs
      simpa only [Attentive, hk, hs] using hok
    · exact hg consent names rfl
  · obtain rfl := Option.some.inj hr
    exact afterResult_turn
  · obtain rfl := Option.some.inj hr
    exact (closeSession_silence _).turn
  · cases hr

theorem stack_take {stack : Stack} {r : HttpServerEvent × Stack} (h : stack.take = some r) :
    stackStep X stack .take = some r.2 ∧ ∀ a, r.2.UnderWay a → stack.UnderWay a := by
  have hst : stackStep X stack .take = some r.2 := by
    simp only [stackStep, h, Option.map_some]
  refine ⟨hst, fun a ha => ?_⟩
  rcases stackStep_underWay hst ha with hu | hl
  · exact hu
  · cases hl

/-- **One step**: what was accepted stays so, and below the main isolate runs
the stack, with answers in time. -/
theorem appStep_accepted {l : AppLabel} (hst : appStep X platform p l = some p')
    (hok : Attentive p l) (hp : Accepted p) :
    Accepted p' ∧ Run (stackStep X) InTime p.stack p'.stack := by
  -- a turn without an event
  have of_turn : ∀ {c}, Turn p.controller c →
      Accepted (p.turn c) ∧ Run (stackStep X) InTime p.stack (p.turn c).stack :=
    fun ht => ⟨ht.accepted hp, turn_stack p _⟩
  cases l with
  | stack l =>
      simp only [appStep] at hst
      split at hst
      · rename_i hbelow
        obtain ⟨stack, hs, rfl⟩ := Option.map_eq_some_iff.mp hst
        refine ⟨⟨hp.permission, hp.dispatched, hp.outbox, ?_⟩, Run.single hok hs⟩
        intro config hu hne
        rcases stackStep_underWay hs hu with hu | rfl
        · exact hp.underWay config hu hne
        · cases hbelow
      · cases hst
  | event =>
      obtain ⟨r, hr, rfl⟩ := Option.map_eq_some_iff.mp hst
      obtain ⟨htake, hunder⟩ := stack_take (X := X) hr
      have hp' : Accepted { p with stack := r.2 } :=
        ⟨hp.permission, hp.dispatched, hp.outbox,
          fun config hu hne => hp.underWay config (hunder _ hu) hne⟩
      constructor
      · exact (onEvent_turn r.1).accepted hp'
      · exact (Run.single (l := .take) trivial htake).trans (sendAll_run r.2 _)
  | resume k r =>
      obtain ⟨h, hk, hr⟩ := Option.bind_eq_some_iff.mp hst
      obtain ⟨c', hc', rfl⟩ := Option.map_eq_some_iff.mp hr
      apply of_turn
      apply resume_turn hok hk _ hc'
      rintro consent names rfl
      exact hp.permission consent names (List.mem_of_getElem? hk)
  | accept i =>
      obtain ⟨page, hpage, rfl⟩ := Option.map_eq_some_iff.mp hst
      exact of_turn (onAccept_turn hok hpage)
  | decline =>
      obtain rfl := Option.some.inj hst
      exact of_turn declineFileRequest_turn
  | close =>
      obtain rfl := Option.some.inj hst
      exact of_turn (closeSession_silence _).turn
  | cancel =>
      obtain rfl := Option.some.inj hst
      exact of_turn cancelSession_turn
  | openOptions =>
      obtain rfl := Option.some.inj hst
      apply of_turn
      unfold ReceiveController.openOptions
      split <;> exact Silence.turn ⟨rfl, List.Subset.refl _, rfl, rfl⟩
  | edit i e =>
      obtain ⟨page, -, hpage⟩ := Option.bind_eq_some_iff.mp hst
      split at hpage
      · obtain rfl := Option.some.inj hpage
        exact of_turn (Silence.turn ⟨rfl, List.Subset.refl _, rfl, rfl⟩)
      · cases hpage
  | setDestinationDir | setSaveToGallery =>
      obtain rfl := Option.some.inj hst
      exact of_turn (Silence.turn ⟨rfl, List.Subset.refl _, rfl, rfl⟩)
  | configure config =>
      obtain rfl := Option.some.inj hst
      exact ⟨⟨hp.permission, hp.dispatched, hp.outbox, hp.underWay⟩, .refl⟩

theorem accepted_run {config : AppConfig} {pin : Option String} {verify : Bool} {cap : ℕ}
    (h : Run (appStep X platform) Attentive (.init config pin verify cap) p) :
    Accepted p ∧ Run (stackStep X) InTime (.init pin verify cap) p.stack := by
  induction h with
  | refl =>
      refine ⟨⟨?_, ?_, rfl, ?_⟩, .refl⟩
      · intro consent names hm
        cases hm
      · intro d hm
        cases hm
      · rintro config (hm | hm | ⟨tx, hm⟩) <;> cases hm
  | snoc _ hok hst ih =>
      obtain ⟨hacc, hrun⟩ := appStep_accepted hst hok ih.1
      exact ⟨hacc, ih.2.trans hrun⟩

end Application

/-! ## §4  Consent -/

/-- User consent is respected: every accepting decision the application sent
names the session that was looked at and, if it accepts a file, uses names
chosen for that session; and a session that was activated, or whose files are
being written, was itself accepted. -/
structure ConsentRespected (p : App) : Prop where
  session : ∀ d ∈ p.controller.dispatched, d.config.sessionId = d.consent.lookedAt
  selection : ∀ d ∈ p.controller.dispatched, d.config.fileNameMap.isEmpty = false →
    d.consent.selectionOf = some d.consent.lookedAt
  activated : ∀ sid, .activated sid ∈ p.stack.core.log → sid ∈ p.controller.consents
  written : ∀ sid fid, .uploadStarted sid fid ∈ p.stack.core.log →
    sid ∈ p.controller.consents

/-- **User consent**, for every order of the events, the awaits and the user's
actions in which every step meets the condition. -/
theorem consent_respected {X : Externals} {platform : Platform} {config : AppConfig}
    {pin : Option String} {verify : Bool} {cap : ℕ} {p : App}
    (h : Run (appStep X platform) Attentive (.init config pin verify cap) p) :
    ConsentRespected p := by
  obtain ⟨hacc, hrun⟩ := accepted_run h
  have hactivated : ∀ sid, .activated sid ∈ p.stack.core.log →
      sid ∈ p.controller.consents := by
    intro sid hm
    obtain ⟨tx, config, hans, rfl, hne⟩ := (activated_accepts hrun).activated sid hm
    exact hacc.underWay config (.inr (.inr ⟨tx, hans⟩)) hne
  refine ⟨?_, ?_, hactivated, ?_⟩
  · exact fun d hd => (hacc.dispatched d hd).session
  · exact fun d hd => (hacc.dispatched d hd).selection
  · intro sid fid hm
    exact hactivated sid (uploadStarted_activated (routed_run hrun).core sid fid hm)

/-! ## §5  Concrete runs -/

namespace Sample

/-- A device that asks for the storage permission. -/
def phone : Platform := ⟨true, false, true, some 30⟩

def appConfig : AppConfig where
  settings := ⟨false, false, false, false, none⟩
  favorites := []
  webUpload := false

def app : App := .init appConfig none true 16

/-- A request travels up to the main isolate. -/
def arrives (i : ℕ) : List AppLabel :=
  (prepare i).map (fun l => .stack (.core l)) ++
    [.stack .listen, .stack .listen, .stack .listen, .stack .event, .event]

/-- The answer travels down and the handler `i` of the server acts on it. -/
def answers (i : ℕ) : List AppLabel :=
  [.stack .task, .stack (.call 0), .stack (.core (.task i .decision)),
    .stack (.core (.task i .go))]

/-- The user accepts a request; while the permission dialog is open its sender
gives up and another request arrives. -/
def dialogOpen : List AppLabel :=
  arrives 0 ++ [.resume 0 (.directories "/downloads" "/cache"), .accept 0] ++
    [.stack (.core (.task 0 .drop)), .stack (.core (.task 1 .go)),
      .stack (.core (.task 1 .go)), .stack .listen, .stack .listen, .stack .listen,
      .stack .event, .event] ++
    arrives 2 ++ [.resume 1 (.directories "/downloads" "/cache")]

end Sample

/-- Some session was activated that nobody accepted. -/
def App.unconsented (p : App) : Bool :=
  p.stack.core.log.any fun
    | .activated sid => !p.controller.consents.contains sid
    | _ => false

theorem not_consentRespected {p : App} (h : p.unconsented = true) : ¬ ConsentRespected p := by
  intro hc
  obtain ⟨e, he, h⟩ := List.any_eq_true.mp h
  split at h
  · rename_i sid
    have hmem := hc.activated sid he
    simp [hmem] at h
  · cases h

/-- Without the condition a request that arrived while the permission dialog
was open is accepted in the place of the one the user accepted. -/
theorem consent_respected_fails :
    ¬ ∀ p, Reach (appStep .unary Sample.phone) Sample.app p → ConsentRespected p := by
  intro h
  obtain ⟨p, hp, hbad⟩ := exists_of_exec_any (appStep .unary Sample.phone) Sample.app
    (Sample.dialogOpen ++ [.resume 0 .go] ++ Sample.answers 2) App.unconsented rfl
  exact not_consentRespected hbad (h p (reach_of_exec hp))

/-- The user accepts a request and grants the permission: the session is
activated, with consent. -/
theorem consent_respected_granted :
    ∃ p, Run (appStep .unary Sample.phone) Attentive Sample.app p ∧
      .activated "" ∈ p.stack.core.log ∧ ConsentRespected p := by
  obtain ⟨p, hp, hcheck⟩ := exists_of_exec_any (appStep .unary Sample.phone) Sample.app
    (Sample.arrives 0 ++ [.resume 0 (.directories "/downloads" "/cache"), .accept 0,
      .resume 0 .go] ++ Sample.answers 0)
    (fun p => p.stack.core.log.contains (.activated "")) rfl
  have hrun : Run (appStep .unary Sample.phone) Attentive Sample.app p :=
    run_of_exec hp (by decide)
  exact ⟨p, hrun, by simpa using hcheck, consent_respected hrun⟩

end FireBoxTransfer

import FireBoxTransfer.Core.ServerV2

/-!
# The steps of the v2 handlers

Every way out of an await of a handler, as one case of a relation. What a
step does to the slot, to the channels, to the events and to the PIN attempts
is read off these cases.
-/

namespace FireBoxTransfer

open TaskPool

/-- `TaskStep X s t a o`: task `t`, resumed by `a` on the shared state `s`,
takes one of the branches of its handler, with the outcome `o`. -/
inductive TaskStep (X : Externals) (s : ServerV2) : Task → Act → Step → Prop
  -- `prepare_upload`
  | noPin {clientInfo query} (hpin : s.pin = none) :
      TaskStep X s (.prepareUpload (.start clientInfo query)) .go
        { shared := s, task := .prepareUpload (.body clientInfo) }
  | needsPin {clientInfo query requiredPin} (hpin : s.pin = some requiredPin) :
      TaskStep X s (.prepareUpload (.start clientInfo query)) .go
        { shared := s, task := .prepareUpload (.pin clientInfo query requiredPin) }
  | pinRefused {clientInfo query requiredPin attempts err}
      (hcheck : checkPin requiredPin s.pinAttempts query clientInfo.ip.ip =
        (.error err, attempts)) :
      TaskStep X s (.prepareUpload (.pin clientInfo query requiredPin)) .go
        { shared := { s with pinAttempts := attempts }, task := .answered (.error err) }
  | pinPassed {clientInfo query requiredPin attempts}
      (hcheck : checkPin requiredPin s.pinAttempts query clientInfo.ip.ip =
        (.ok (), attempts)) :
      TaskStep X s (.prepareUpload (.pin clientInfo query requiredPin)) .go
        { shared := { s with pinAttempts := attempts }
          task := .prepareUpload (.body clientInfo) }
  | badBody {clientInfo err} :
      TaskStep X s (.prepareUpload (.body clientInfo)) (.body (.error err))
        { shared := s, task := .answered (.error err) }
  | noFiles {clientInfo payload} (hfiles : payload.files.isEmpty = true) :
      TaskStep X s (.prepareUpload (.body clientInfo)) (.body (.ok payload))
        { shared := s, task := .answered (.error (.badRequest "No files provided")) }
  | reserved {clientInfo payload ctx} (hfiles : payload.files.isEmpty = false)
      (hctx : ctx = ⟨clientInfo, payload, X.uuid s.minted, s.cancelTokens.length⟩) :
      TaskStep X s (.prepareUpload (.body clientInfo)) (.body (.ok payload))
        { shared := { s with
            minted := s.minted + 1, cancelTokens := s.cancelTokens ++ [false] }
          task := .prepareUpload (.claim ctx) }
  | conflict {ctx st} (hslot : s.session = some st) :
      TaskStep X s (.prepareUpload (.claim ctx)) .go
        { shared := s
          task := .answered (.error (.message .conflict "Blocked by another session")) }
  | claimed {ctx} (hslot : s.session = none) :
      TaskStep X s (.prepareUpload (.claim ctx)) .go
        { shared := { s with
            session := some (.pending ⟨ctx.sessionId, ctx.clientInfo.ip, ctx.cancelled⟩)
            decisions := s.decisions ++ [.waiting] }
          task := .prepareUpload (.send ctx s.decisions.length)
          seen := [.claimed ctx.sessionId] }
  | askLost {ctx rx} (hsend : s.events.send (prepareEvent X ctx rx) = some (.error ())) :
      TaskStep X s (.prepareUpload (.send ctx rx)) .go
        (abandonPending s ctx (.status .internalServerError))
  | asked {ctx rx events} (hsend : s.events.send (prepareEvent X ctx rx) = some (.ok events)) :
      TaskStep X s (.prepareUpload (.send ctx rx)) .go
        { shared := { s with events }, task := .prepareUpload (.select ctx rx) }
  | declined {ctx rx} (hd : s.decisions[rx]? = some (.sent .decline)) :
      TaskStep X s (.prepareUpload (.select ctx rx)) .decision
        { shared := s, task := .prepareUpload (.clear ctx true) }
  | acceptedNone {ctx rx ids} (hd : s.decisions[rx]? = some (.sent (.accept ids)))
      (hnone : (acceptedFiles X s.minted ctx.payload.files ids).isEmpty = true) :
      TaskStep X s (.prepareUpload (.select ctx rx)) .decision
        { shared := { s with minted := s.minted +
            (acceptedFiles X s.minted ctx.payload.files ids).entries.length }
          task := .prepareUpload (.clear ctx false) }
  | accepted {ctx rx ids} (hd : s.decisions[rx]? = some (.sent (.accept ids)))
      (hsome : (acceptedFiles X s.minted ctx.payload.files ids).isEmpty = false) :
      TaskStep X s (.prepareUpload (.select ctx rx)) .decision
        { shared := { s with minted := s.minted +
            (acceptedFiles X s.minted ctx.payload.files ids).entries.length }
          task := .prepareUpload
            (.activate ctx (acceptedFiles X s.minted ctx.payload.files ids)) }
  | undecided {ctx rx} (hd : s.decisions[rx]? = some .dropped) :
      TaskStep X s (.prepareUpload (.select ctx rx)) .decision
        (abandonPending s ctx (.status .internalServerError))
  | withdrawn {ctx rx} (hc : s.cancelTokens[ctx.cancelled]? = some true) :
      TaskStep X s (.prepareUpload (.select ctx rx)) .cancelled
        (abandonPending s ctx (.message .forbidden "Cancelled by sender"))
  | cleared {ctx rejected} :
      TaskStep X s (.prepareUpload (.clear ctx rejected)) .go
        { shared := { s with session := clearPendingSession s.session }
          task := .answered (clearedResponse rejected) }
  | activated {ctx files} :
      TaskStep X s (.prepareUpload (.activate ctx files)) .go
        { shared := { s with
            session := some (.active ⟨ctx.sessionId, ctx.clientInfo.ip, files⟩) }
          task := .answered (.ok (preparedResponse ctx files))
          seen := [.activated ctx.sessionId] }
  -- its drops: the guard is armed in the last three
  | dropStart {clientInfo query} :
      TaskStep X s (.prepareUpload (.start clientInfo query)) .drop
        { shared := s, task := .dropped }
  | dropPin {clientInfo query requiredPin} :
      TaskStep X s (.prepareUpload (.pin clientInfo query requiredPin)) .drop
        { shared := s, task := .dropped }
  | dropBody {clientInfo} :
      TaskStep X s (.prepareUpload (.body clientInfo)) .drop { shared := s, task := .dropped }
  | dropClaim {ctx} :
      TaskStep X s (.prepareUpload (.claim ctx)) .drop { shared := s, task := .dropped }
  | dropClear {ctx rejected} :
      TaskStep X s (.prepareUpload (.clear ctx rejected)) .drop { shared := s, task := .dropped }
  | dropSend {ctx rx} :
      TaskStep X s (.prepareUpload (.send ctx rx)) .drop
        { shared := s, task := .dropped, spawned := [.cleanup (.clear ctx.sessionId)] }
  | dropSelect {ctx rx} :
      TaskStep X s (.prepareUpload (.select ctx rx)) .drop
        { shared := s, task := .dropped, spawned := [.cleanup (.clear ctx.sessionId)] }
  | dropActivate {ctx files} :
      TaskStep X s (.prepareUpload (.activate ctx files)) .drop
        { shared := s, task := .dropped, spawned := [.cleanup (.clear ctx.sessionId)] }
  -- `upload`
  | located {clientInfo query sid fid token} (hsid : query.get? "sessionId" = some sid)
      (hfid : query.get? "fileId" = some fid) (htoken : query.get? "token" = some token) :
      TaskStep X s (.upload (.start clientInfo query)) .go
        { shared := s, task := .upload (.begin clientInfo sid fid token) }
  | notLocated {clientInfo query} (hmissing : query.get? "sessionId" = none ∨
        query.get? "fileId" = none ∨ query.get? "token" = none) :
      TaskStep X s (.upload (.start clientInfo query)) .go
        { shared := s, task := .answered (.error (.message .badRequest "Missing parameters")) }
  | beginRefused {clientInfo sid fid token err}
      (hb : beginUpload clientInfo.ip sid fid token s.session = .error err) :
      TaskStep X s (.upload (.begin clientInfo sid fid token)) .go
        { shared := s, task := .answered (.error err) }
  | begun {clientInfo sid fid token st file}
      (hb : beginUpload clientInfo.ip sid fid token s.session = .ok (st, file)) :
      TaskStep X s (.upload (.begin clientInfo sid fid token)) .go
        { shared := { s with session := some st, targets := s.targets ++ [.waiting] }
          task := .upload (.send ⟨sid, fid, file, s.targets.length⟩)
          seen := [.uploadStarted sid fid] }
  | offerLost {ctx : UploadCtx} (hsend : s.events.send
        (.fileUpload ctx.sessionId ctx.fileId ctx.file ctx.targetRx) = some (.error ())) :
      TaskStep X s (.upload (.send ctx)) .go
        { shared := s, task := .upload (.finish ctx .failed) }
  | offered {ctx : UploadCtx} {events} (hsend : s.events.send
        (.fileUpload ctx.sessionId ctx.fileId ctx.file ctx.targetRx) = some (.ok events)) :
      TaskStep X s (.upload (.send ctx)) .go
        { shared := { s with events }, task := .upload (.target ctx) }
  | targeted {ctx target} (ht : s.targets[ctx.targetRx]? = some (.sent target)) :
      TaskStep X s (.upload (.target ctx)) .go
        { shared := s
          task := .upload (.save ctx target (if s.verifyChecksums then ctx.file.sha256 else none)) }
  | notTargeted {ctx} (ht : s.targets[ctx.targetRx]? = some .dropped) :
      TaskStep X s (.upload (.target ctx)) .go
        { shared := s, task := .upload (.finish ctx .failed) }
  | saved {ctx target sha result} (hr : ¬(result = .hashMismatch ∧ sha = none)) :
      TaskStep X s (.upload (.save ctx target sha)) (.saved result)
        { shared := s, task := .upload (.finish ctx result) }
  | finished {ctx result}
      (hended : (finalizeFile ctx.sessionId ctx.fileId result s.session).2 = false) :
      TaskStep X s (.upload (.finish ctx result)) .go
        { shared := { s with
            session := (finalizeFile ctx.sessionId ctx.fileId result s.session).1 }
          task := .answered (uploadResponse result) }
  | finishedLast {ctx result}
      (hended : (finalizeFile ctx.sessionId ctx.fileId result s.session).2 = true) :
      TaskStep X s (.upload (.finish ctx result)) .go
        { shared := { s with
            session := (finalizeFile ctx.sessionId ctx.fileId result s.session).1 }
          task := .upload (.ended ctx result) }
  | endLost {ctx : UploadCtx} {result}
      (hsend : s.events.send (.sessionEnd ctx.sessionId .finished) = some (.error ())) :
      TaskStep X s (.upload (.ended ctx result)) .go
        { shared := s, task := .answered (uploadResponse result) }
  | endSent {ctx : UploadCtx} {result events}
      (hsend : s.events.send (.sessionEnd ctx.sessionId .finished) = some (.ok events)) :
      TaskStep X s (.upload (.ended ctx result)) .go
        { shared := { s with events }, task := .answered (uploadResponse result) }
  -- its drops: the guard is armed in the last three
  | dropUpload {clientInfo query} :
      TaskStep X s (.upload (.start clientInfo query)) .drop { shared := s, task := .dropped }
  | dropBegin {clientInfo sid fid token} :
      TaskStep X s (.upload (.begin clientInfo sid fid token)) .drop
        { shared := s, task := .dropped }
  | dropFinish {ctx result} :
      TaskStep X s (.upload (.finish ctx result)) .drop { shared := s, task := .dropped }
  | dropEnded {ctx result} :
      TaskStep X s (.upload (.ended ctx result)) .drop { shared := s, task := .dropped }
  | dropOffer {ctx} :
      TaskStep X s (.upload (.send ctx)) .drop
        { shared := s, task := .dropped
          spawned := [.cleanup (.finalize ctx.sessionId ctx.fileId)] }
  | dropTarget {ctx} :
      TaskStep X s (.upload (.target ctx)) .drop
        { shared := s, task := .dropped
          spawned := [.cleanup (.finalize ctx.sessionId ctx.fileId)] }
  | dropSave {ctx target sha} :
      TaskStep X s (.upload (.save ctx target sha)) .drop
        { shared := s, task := .dropped
          spawned := [.cleanup (.finalize ctx.sessionId ctx.fileId)] }
  -- `cancel` and `cancel_v2_session`
  | cancelRead {clientInfo query} :
      TaskStep X s (.cancel (.start clientInfo query)) .go
        { shared := s, task := .cancel (.pending clientInfo (query.get? "sessionId")) }
  | cancelledPending {clientInfo sid pending}
      (hp : pendingToCancel clientInfo.ip sid s.session = some pending) :
      TaskStep X s (.cancel (.pending clientInfo sid)) .go
        { shared := { s with cancelTokens := s.cancelTokens.set pending.cancel true }
          task := .answered (.ok .new)
          seen := [.pendingCancelled pending.sessionId] }
  | nothingPending {clientInfo}
      (hp : pendingToCancel clientInfo.ip none s.session = none) :
      TaskStep X s (.cancel (.pending clientInfo none)) .go
        { shared := s, task := .answered (.ok .new) }
  | notPending {clientInfo sid}
      (hp : pendingToCancel clientInfo.ip (some sid) s.session = none) :
      TaskStep X s (.cancel (.pending clientInfo (some sid))) .go
        { shared := s, task := .cancel (.active clientInfo sid) }
  | cancelledActive {clientInfo sid}
      (hc : (cancelActive clientInfo.ip sid s.session).2 = true) :
      TaskStep X s (.cancel (.active clientInfo sid)) .go
        { shared := { s with session := (cancelActive clientInfo.ip sid s.session).1 }
          task := .cancel (.send (.sessionEnd sid .cancelled)) }
  | notActive {clientInfo sid}
      (hc : (cancelActive clientInfo.ip sid s.session).2 = false) :
      TaskStep X s (.cancel (.active clientInfo sid)) .go
        { shared := { s with session := (cancelActive clientInfo.ip sid s.session).1 }
          task := .cancel (.send (.cancelReceived clientInfo.ip sid)) }
  | newsLost {event} (hsend : s.events.send event = some (.error ())) :
      TaskStep X s (.cancel (.send event)) .go { shared := s, task := .answered (.ok .new) }
  | newsSent {event events} (hsend : s.events.send event = some (.ok events)) :
      TaskStep X s (.cancel (.send event)) .go
        { shared := { s with events }, task := .answered (.ok .new) }
  | dropCancel {pc} : TaskStep X s (.cancel pc) .drop { shared := s, task := .dropped }
  | removed {sid} :
      TaskStep X s (.cancelV2Session sid) .go
        { shared := { s with session := (cancelV2Session sid s.session).1 }
          task := .returned (cancelV2Session sid s.session).2 }
  | dropRemove {sid} :
      TaskStep X s (.cancelV2Session sid) .drop { shared := s, task := .dropped }
  -- the clean-ups
  | guardCleared {sid} :
      TaskStep X s (.cleanup (.clear sid)) .go
        { shared := { s with session := clearPendingSession s.session }
          task := .cleanup (.aborted sid) }
  | abortLost {sid} (hsend : s.events.send (.prepareUploadAborted sid) = some (.error ())) :
      TaskStep X s (.cleanup (.aborted sid)) .go { shared := s, task := .completed }
  | abortSent {sid events}
      (hsend : s.events.send (.prepareUploadAborted sid) = some (.ok events)) :
      TaskStep X s (.cleanup (.aborted sid)) .go
        { shared := { s with events }, task := .completed }
  | guardFinished {sid fid} (hended : (finalizeFile sid fid .failed s.session).2 = false) :
      TaskStep X s (.cleanup (.finalize sid fid)) .go
        { shared := { s with session := (finalizeFile sid fid .failed s.session).1 }
          task := .completed }
  | guardFinishedLast {sid fid}
      (hended : (finalizeFile sid fid .failed s.session).2 = true) :
      TaskStep X s (.cleanup (.finalize sid fid)) .go
        { shared := { s with session := (finalizeFile sid fid .failed s.session).1 }
          task := .cleanup (.ended sid) }
  | guardEndLost {sid} (hsend : s.events.send (.sessionEnd sid .finished) = some (.error ())) :
      TaskStep X s (.cleanup (.ended sid)) .go { shared := s, task := .completed }
  | guardEndSent {sid events}
      (hsend : s.events.send (.sessionEnd sid .finished) = some (.ok events)) :
      TaskStep X s (.cleanup (.ended sid)) .go
        { shared := { s with events }, task := .completed }

variable {X : Externals} {s : ServerV2} {a : Act} {o : Step}

theorem prepareUploadStep_cases {pc : PrepareUpload} (h : prepareUploadStep X s pc a = some o) :
    TaskStep X s (.prepareUpload pc) a o := by
  cases pc with
  | start clientInfo query =>
      cases a with
      | go =>
          simp only [prepareUploadStep] at h
          split at h <;> cases h
          · exact .noPin ‹_›
          · exact .needsPin ‹_›
      | drop => cases h; exact .dropStart
      | _ => cases h
  | pin clientInfo query requiredPin =>
      cases a with
      | go =>
          simp only [prepareUploadStep] at h
          split at h <;> cases h
          · exact .pinRefused (Prod.ext ‹_› rfl)
          · exact .pinPassed (Prod.ext ‹_› rfl)
      | drop => cases h; exact .dropPin
      | _ => cases h
  | body clientInfo =>
      cases a with
      | body r =>
          cases r with
          | error err => cases h; exact .badBody
          | ok payload =>
              simp only [prepareUploadStep] at h
              split_ifs at h with hfiles <;> cases h
              · exact .noFiles hfiles
              · exact .reserved (Bool.not_eq_true _ ▸ hfiles) rfl
      | drop => cases h; exact .dropBody
      | _ => cases h
  | claim ctx =>
      cases a with
      | go =>
          simp only [prepareUploadStep] at h
          cases hs : s.session with
          | none => rw [hs, claimSlot_none] at h; cases h; exact .claimed hs
          | some st => rw [hs, claimSlot_some] at h; cases h; exact .conflict hs
      | drop => cases h; exact .dropClaim
      | _ => cases h
  | send ctx rx =>
      cases a with
      | go =>
          simp only [prepareUploadStep] at h
          split at h <;> cases h
          · exact .askLost ‹_›
          · exact .asked ‹_›
      | drop => cases h; exact .dropSend
      | _ => cases h
  | select ctx rx =>
      cases a with
      | decision =>
          simp only [prepareUploadStep] at h
          split at h <;> cases h
          · rename_i d hd
            cases d with
            | decline => exact .declined hd
            | accept ids =>
                simp only [decided]
                split_ifs with hnone
                · exact .acceptedNone hd hnone
                · exact .accepted hd (Bool.not_eq_true _ ▸ hnone)
          · exact .undecided ‹_›
      | cancelled =>
          simp only [prepareUploadStep] at h
          split_ifs at h with hc
          cases h
          exact .withdrawn hc
      | drop => cases h; exact .dropSelect
      | _ => cases h
  | clear ctx rejected =>
      cases a with
      | go => cases h; exact .cleared
      | drop => cases h; exact .dropClear
      | _ => cases h
  | activate ctx files =>
      cases a with
      | go => cases h; exact .activated
      | drop => cases h; exact .dropActivate
      | _ => cases h

theorem uploadStep_cases {pc : Upload} (h : uploadStep s pc a = some o) :
    TaskStep X s (.upload pc) a o := by
  cases pc with
  | start clientInfo query =>
      cases a with
      | go =>
          simp only [uploadStep] at h
          split at h <;> cases h
          · exact .located ‹_› ‹_› ‹_›
          · rename_i hnot
            refine .notLocated ?_
            cases hsid : query.get? "sessionId" <;> cases hfid : query.get? "fileId" <;>
              cases htoken : query.get? "token" <;> simp
            exact hnot _ _ _ hsid hfid htoken
      | drop => cases h; exact .dropUpload
      | _ => cases h
  | begin clientInfo sid fid token =>
      cases a with
      | go =>
          simp only [uploadStep] at h
          split at h <;> cases h
          · exact .beginRefused ‹_›
          · exact .begun ‹_›
      | drop => cases h; exact .dropBegin
      | _ => cases h
  | send ctx =>
      cases a with
      | go =>
          simp only [uploadStep] at h
          split at h <;> cases h
          · exact .offerLost ‹_›
          · exact .offered ‹_›
      | drop => cases h; exact .dropOffer
      | _ => cases h
  | target ctx =>
      cases a with
      | go =>
          simp only [uploadStep] at h
          split at h <;> cases h
          · exact .targeted ‹_›
          · exact .notTargeted ‹_›
      | drop => cases h; exact .dropTarget
      | _ => cases h
  | save ctx target sha =>
      cases a with
      | saved result =>
          simp only [uploadStep] at h
          split_ifs at h with hr
          cases h
          exact .saved hr
      | drop => cases h; exact .dropSave
      | _ => cases h
  | finish ctx result =>
      cases a with
      | go =>
          simp only [uploadStep] at h
          split_ifs at h with hended <;> cases h
          · exact .finishedLast hended
          · exact .finished (Bool.not_eq_true _ ▸ hended)
      | drop => cases h; exact .dropFinish
      | _ => cases h
  | ended ctx result =>
      cases a with
      | go =>
          simp only [uploadStep] at h
          split at h <;> cases h
          · exact .endLost ‹_›
          · exact .endSent ‹_›
      | drop => cases h; exact .dropEnded
      | _ => cases h

theorem cancelStep_cases {pc : Cancel} (h : cancelStep s pc a = some o) :
    TaskStep X s (.cancel pc) a o := by
  cases a with
  | drop => cases pc <;> cases h <;> exact .dropCancel
  | go =>
      cases pc with
      | start clientInfo query => cases h; exact .cancelRead
      | pending clientInfo sid =>
          simp only [cancelStep] at h
          split at h
          · cases h; exact .cancelledPending ‹_›
          · cases sid <;> cases h
            · exact .nothingPending ‹_›
            · exact .notPending ‹_›
      | active clientInfo sid =>
          simp only [cancelStep] at h
          split_ifs at h with hc <;> cases h
          · exact .cancelledActive hc
          · exact .notActive (Bool.not_eq_true _ ▸ hc)
      | send event =>
          simp only [cancelStep] at h
          split at h <;> cases h
          · exact .newsLost ‹_›
          · exact .newsSent ‹_›
  | _ => cases pc <;> cases h

theorem cleanupStep_cases {pc : Cleanup} (h : cleanupStep s pc a = some o) :
    TaskStep X s (.cleanup pc) a o := by
  cases a with
  | go =>
      cases pc with
      | clear sid => cases h; exact .guardCleared
      | aborted sid =>
          simp only [cleanupStep] at h
          split at h <;> cases h
          · exact .abortLost ‹_›
          · exact .abortSent ‹_›
      | finalize sid fid =>
          simp only [cleanupStep] at h
          split_ifs at h with hended <;> cases h
          · exact .guardFinishedLast hended
          · exact .guardFinished (Bool.not_eq_true _ ▸ hended)
      | ended sid =>
          simp only [cleanupStep] at h
          split at h <;> cases h
          · exact .guardEndLost ‹_›
          · exact .guardEndSent ‹_›
  | _ => cases pc <;> cases h

/-- **Every step of a task is one of these.** -/
theorem taskStep_cases {t : Task} (h : taskStep X s t a = some o) : TaskStep X s t a o := by
  cases t with
  | prepareUpload pc => exact prepareUploadStep_cases h
  | upload pc => exact uploadStep_cases h
  | cancel pc => exact cancelStep_cases h
  | cancelV2Session sid =>
      cases a with
      | go => cases h; exact .removed
      | drop => cases h; exact .dropRemove
      | _ => cases h
  | cleanup pc => exact cleanupStep_cases h
  | _ => cases h

/-- `EnvStep s e s' ts`: what happens outside takes the shared state to `s'`
and starts the tasks `ts`. -/
inductive EnvStep (s : ServerV2) : Env → ServerV2 → List Task → Prop
  | prepareUpload {clientInfo query} :
      EnvStep s (.prepareUpload clientInfo query) s
        [.prepareUpload (.start clientInfo (parseQuery query))]
  | upload {clientInfo query} :
      EnvStep s (.upload clientInfo query) s [.upload (.start clientInfo (parseQuery query))]
  | cancel {clientInfo query} :
      EnvStep s (.cancel clientInfo query) s [.cancel (.start clientInfo (parseQuery query))]
  | cancelV2Session {sid} : EnvStep s (.cancelV2Session sid) s [.cancelV2Session sid]
  | registered {ip info events} (hsend : s.events.send (.register ip info) = some (.ok events)) :
      EnvStep s (.register ip info) { s with events } []
  | registerLost {ip info}
      (hsend : ∀ events, s.events.send (.register ip info) ≠ some (.ok events)) :
      EnvStep s (.register ip info) s []
  | recv {event queue} (hq : s.events.queue = event :: queue) :
      EnvStep s .recv { s with events := { s.events with queue } } []
  | close :
      EnvStep s .close { s with events := { s.events with queue := [], closed := true } } []
  | decide {tx decision decisions}
      (hr : resolve s.decisions tx (.sent decision) = some decisions) :
      EnvStep s (.decide tx decision) { s with decisions } []
  | dropDecision {tx decisions} (hr : resolve s.decisions tx .dropped = some decisions) :
      EnvStep s (.dropDecision tx) { s with decisions } []
  | answerTarget {tx target targets} (hr : resolve s.targets tx (.sent target) = some targets) :
      EnvStep s (.answerTarget tx target) { s with targets } []
  | dropTarget {tx targets} (hr : resolve s.targets tx .dropped = some targets) :
      EnvStep s (.dropTarget tx) { s with targets } []

theorem envStep_cases {e : Env} {s' : ServerV2} {ts : List Task}
    (h : envStep s e = some (s', ts)) : EnvStep s e s' ts := by
  cases e with
  | prepareUpload => cases h; exact .prepareUpload
  | upload => cases h; exact .upload
  | cancel => cases h; exact .cancel
  | cancelV2Session => cases h; exact .cancelV2Session
  | register ip info =>
      simp only [envStep] at h
      split at h <;> cases h
      · exact .registered ‹_›
      · exact .registerLost ‹_›
  | recv =>
      simp only [envStep] at h
      split at h <;> cases h
      exact .recv ‹_›
  | close => cases h; exact .close
  | decide | dropDecision | answerTarget | dropTarget =>
      obtain ⟨_, hr, hs⟩ := Option.map_eq_some_iff.mp h
      cases hs
      constructor
      exact hr

end FireBoxTransfer

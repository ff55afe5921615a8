import FireBoxTransfer.Isolates.Handlers
import FireBoxTransfer.Isolates.ReceivingRuns

/-!
# Uploads in the handler of the server

For the stream of its task the handler of the server begins an upload and reports it; what it
does with the upload meanwhile is receiving. Whatever the receiving isolate does, the handler
goes with it: its queue has the uploads that are not reported, its holder has the session, and
the main isolate is told the same.
-/

namespace FireBoxTransfer

open Runs
open Isolates (SessionHolder QueuedUpload Reply ServerAct QueuedAct httpServer queuedStep)

namespace Receiving

/-! ## The handler that serves -/

section Serves

variable {Info : Type}

/-- The holder, the uploads and what was sent since the server started. Tasks are handled
while it serves. -/
inductive Serves : SessionHolder → List (QueuedUpload Info) →
    List (Reply (Isolates.HttpServerEvent Info)) → Prop where
  | started : Serves (httpServer Info).fresh [] []
  | step {holder holder' : SessionHolder} {uploads uploads' : List (QueuedUpload Info)}
      {sent replies : List (Reply (Isolates.HttpServerEvent Info))}
      (act : ServerAct Info) (h : Serves holder uploads sent)
      (hstep : Isolates.serverStep holder (.serving uploads) act =
        some (holder', .serving uploads', replies)) :
      Serves holder' uploads' (sent ++ replies)
  | task {holder : SessionHolder} {uploads : List (QueuedUpload Info)}
      {sent : List (Reply (Isolates.HttpServerEvent Info))}
      (task : Isolates.BaseHttpServerTask) (h : Serves holder uploads sent) :
      Serves ((httpServer Info).start holder task).1 uploads sent

variable {holder : SessionHolder} {uploads pre post : List (QueuedUpload Info)}
  {entry : QueuedUpload Info} {sent : List (Reply (Isolates.HttpServerEvent Info))}

/-- The handler is an orderly one, and its events have not come to an end. -/
theorem Serves.behaves (h : Serves holder uploads sent) :
    Isolates.Behaves (httpServer Info) (Isolates.ServerGood Info)
      Isolates.BaseHttpServerTask.start (Isolates.ServerPoint.serving uploads)
      (.event .started :: sent) := by
  induction h with
  | started =>
      exact @Isolates.Behaves.step (httpServer Info) _ _ 0 (httpServer Info).fresh _ _ _
        ServerAct.started _ _ (.start (httpServer Info).fresh) trivial rfl
  | @step holder holder' uploads uploads' sent replies act _ hstep ih =>
      refine @Isolates.Behaves.step (httpServer Info) _ _ 0 holder holder' _ _ act _ _ ih ?_ hstep
      cases act with
      | completed => cases hstep
      | threw => cases hstep
      | started | startFailed | event | upload => trivial
  | task task _ ih => exact ih

theorem Serves.upload (h : Serves holder uploads sent) {uploads' : List (QueuedUpload Info)}
    {replies : List (Reply (Isolates.HttpServerEvent Info))} {i : ℕ} {act : QueuedAct Info}
    (hstep : queuedStep uploads i act = some (uploads', replies)) :
    Serves holder uploads' (sent ++ replies) := by
  refine h.step (.upload i act) ?_
  simp only [Isolates.serverStep, hstep, Option.map_some]

theorem Serves.begin (h : Serves holder (pre ++ entry :: post) sent)
    (hwaits : entry.started = false)
    (hnext : ∀ earlier ∈ pre, (earlier.serial, earlier.fileId) ≠ (entry.serial, entry.fileId)) :
    Serves holder (pre ++ { entry with started := true } :: post)
      (sent ++ [.event (.fileUpload entry.sessionId entry.fileId entry.info)]) := by
  have hget : (pre ++ entry :: post)[pre.length]? = some entry := by simp
  have hisNext : Isolates.isNext (pre ++ entry :: post) pre.length entry = true := by
    unfold Isolates.isNext
    rw [List.take_left]
    exact List.all_eq_true.mpr fun earlier hmem => decide_eq_true (hnext earlier hmem)
  refine @Serves.upload _ _ _ _ h _ _ pre.length .begin ?_
  unfold queuedStep
  simp only [hget, hwaits, hisNext, if_true, List.set_append_right _ _ (Nat.le_refl _),
    Nat.sub_self, List.set_cons_zero]

theorem Serves.result (h : Serves holder (pre ++ entry :: post) sent)
    (hstarted : entry.started = true) (info : Info) :
    Serves holder (pre ++ post)
      (sent ++ [.event (.fileUploadResult entry.sessionId entry.fileId info)]) := by
  have hget : (pre ++ entry :: post)[pre.length]? = some entry := by simp
  refine @Serves.upload _ _ _ _ h _ _ pre.length (.result info) ?_
  unfold queuedStep
  simp only [hget, hstarted, List.eraseIdx_append_of_length_le (Nat.le_refl _), Nat.sub_self,
    List.eraseIdx_cons_zero]

end Serves

/-! ## What the handler has of an isolate -/

def replyOf (event : HttpServerEvent) : Reply (Isolates.HttpServerEvent HttpServerEvent) :=
  .event (match event with
    | .prepareUpload sessionId _ _ _ _ => .prepareUpload sessionId event
    | .fileUpload sessionId fileId _ => .fileUpload sessionId fileId event
    | .fileUploadResult sessionId fileId _ _ _ => .fileUploadResult sessionId fileId event
    | .sessionEnd sessionId _ => .sessionEnd sessionId event
    | .register _ _ | .prepareUploadAborted _ | .cancelReceived _ _ => .other event)

def UploadPoint.isOpen : UploadPoint → Bool
  | .reported | .done => false
  | _ => true

def Upload.entry (u : Upload) : QueuedUpload HttpServerEvent :=
  ⟨u.session, u.sessionId, u.fileId, .fileUpload u.sessionId u.fileId u.file, u.point ≠ .queued⟩

/-- The uploads that are not reported. -/
def entries (uploads : List Upload) : List (QueuedUpload HttpServerEvent) :=
  (uploads.filter fun u => u.point.isOpen).map Upload.entry

def Isolate.holder (q : Isolate) : SessionHolder where
  session := q.session.bind fun s => q.sessions[s]?.map fun session =>
    ⟨s, session.config.sessionId, session.config.fileNameMap.keys⟩
  sessions := q.sessions.length

/-- The handler of the server has come to where the isolate is. -/
def Isolate.Followed (q : Isolate) : Prop :=
  Serves q.holder (entries q.uploads) (q.toMain.map fun e => replyOf e.event)

theorem entries_append (us vs : List Upload) : entries (us ++ vs) = entries us ++ entries vs := by
  simp [entries]

theorem entries_cons_of_open {u : Upload} {us : List Upload} (h : u.point.isOpen = true) :
    entries (u :: us) = u.entry :: entries us := by
  simp [entries, h]

theorem entries_cons_of_closed {u : Upload} {us : List Upload} (h : u.point.isOpen = false) :
    entries (u :: us) = entries us := by
  simp [entries, h]

theorem getElem?_split {us : List Upload} {k : ℕ} {u : Upload} (h : us[k]? = some u) :
    ∃ pre post, us = pre ++ u :: post ∧ pre.length = k ∧ ∀ v, us.set k v = pre ++ v :: post := by
  obtain ⟨hk, hu⟩ := List.getElem?_eq_some_iff.mp h
  refine ⟨us.take k, us.drop (k + 1), ?_, List.length_take_of_le (Nat.le_of_lt hk), fun v => ?_⟩
  · rw [← hu, ← List.drop_eq_getElem_cons hk, List.take_append_drop]
  · rw [List.set_eq_take_append_cons_drop, if_pos hk]

/-- The holder has the configurations of the sessions only. -/
theorem holder_congr {q q' : Isolate} (hsession : q'.session = q.session)
    (hconfig : q'.sessions.map ReceiveSession.config = q.sessions.map ReceiveSession.config) :
    q'.holder = q.holder := by
  have hlength : q'.sessions.length = q.sessions.length := by
    simpa using congrArg List.length hconfig
  have hget : ∀ s : ℕ, q'.sessions[s]?.map ReceiveSession.config =
      q.sessions[s]?.map ReceiveSession.config := by
    intro s
    rw [← List.getElem?_map, hconfig, List.getElem?_map]
  unfold Isolate.holder
  rw [hsession, hlength]
  congr 2
  funext s
  have hmap := congrArg (Option.map fun config : HttpServerReceiveConfig =>
    (⟨s, config.sessionId, config.fileNameMap.keys⟩ : Isolates.ReceiveSession)) (hget s)
  rw [Option.map_map, Option.map_map] at hmap
  exact hmap

theorem config_set {sessions : List ReceiveSession} {s : ℕ} {old new : ReceiveSession}
    (hold : sessions[s]? = some old) (hsame : new.config = old.config) :
    (sessions.set s new).map ReceiveSession.config = sessions.map ReceiveSession.config := by
  obtain ⟨hs, rfl⟩ := List.getElem?_eq_some_iff.mp hold
  rw [List.map_set, hsame, ← List.getElem_map ReceiveSession.config (h := by simpa using hs),
    List.set_getElem_self]

/-! ## One step of the isolate -/

section Followed

variable {q : Isolate} {k : ℕ} {u : Upload}

/-- What the handler does not see. -/
theorem Isolate.Followed.congr {q' : Isolate} (h : q.Followed) (hholder : q'.holder = q.holder)
    (hentries : entries q'.uploads = entries q.uploads) (htold : q'.toMain = q.toMain) :
    q'.Followed := by
  unfold Isolate.Followed
  rw [hholder, hentries, htold]
  exact h

/-- An event of the stream. -/
theorem Isolate.Followed.event {q' : Isolate} (h : q.Followed)
    (event : Isolates.RsServerEvent HttpServerEvent) (told : List Emitted)
    (hstep : Isolates.eventStep q.holder (entries q.uploads) event =
      (q'.holder, entries q'.uploads, told.map fun e => replyOf e.event))
    (htold : q'.toMain = q.toMain ++ told) : q'.Followed := by
  unfold Isolate.Followed
  rw [htold, List.map_append]
  refine h.step (.event event) ?_
  simp only [Isolates.serverStep, hstep]

/-- The handler of an upload says something. -/
theorem Isolate.Followed.told {q' : Isolate} {event : HttpServerEvent} {upload : Option ℕ}
    (h : Serves q.holder (entries q'.uploads)
      ((q.toMain.map fun e => replyOf e.event) ++ [replyOf event]))
    (hholder : q'.holder = q.holder) (htold : q'.toMain = q.toMain ++ [⟨upload, event⟩]) :
    q'.Followed := by
  unfold Isolate.Followed
  rw [hholder, htold, List.map_append]
  exact h

/-- An upload that stays under way. -/
theorem entries_set (hu : q.uploads[k]? = some u) {v : Upload} (hentry : v.entry = u.entry)
    (hopen : v.point.isOpen = u.point.isOpen) :
    entries (q.uploads.set k v) = entries q.uploads := by
  obtain ⟨pre, post, hus, -, hset⟩ := getElem?_split hu
  rw [hset, hus, entries_append, entries_append]
  congr 1
  cases h : u.point.isOpen with
  | true =>
      rw [entries_cons_of_open (hopen.trans h), entries_cons_of_open h, hentry]
  | false =>
      rw [entries_cons_of_closed (hopen.trans h), entries_cons_of_closed h]

theorem followed_setPoint (h : q.Followed) (hu : q.uploads[k]? = some u) {point : UploadPoint}
    (hopen : point.isOpen = u.point.isOpen) (hstarted : u.point ≠ .queued)
    (hpoint : point ≠ .queued) : (q.setPoint k u point).Followed :=
  h.congr rfl (entries_set hu (by simp [Upload.entry, hstarted, hpoint]) hopen) rfl

theorem followed_setTarget (h : q.Followed) (hu : q.uploads[k]? = some u)
    {previous : Option FileSaveTarget} (hpoint : u.point = .preparing previous)
    (target : FileSaveTarget) : (q.setTarget k u target).Followed := by
  refine h.congr (holder_congr rfl ?_) (entries_set hu ?_ ?_) rfl
  · refine List.ext_getElem? fun s => ?_
    unfold Isolate.setTarget
    dsimp only
    rw [List.getElem?_map, List.getElem?_map, List.getElem?_modify]
    cases q.sessions[s]? with
    | none => rfl
    | some session =>
        dsimp only [Option.map_eq_map, Option.map_some]
        split <;> rfl
  · simp [Upload.entry, hpoint]
  · rw [hpoint]
    rfl

/-- The queue of the isolate starts an upload when the handler may begin it. -/
theorem followed_start (h : q.Followed) (hu : q.uploads[k]? = some u)
    (hpoint : u.point = .queued) (hserved : Served (q.start k)) : (q.start k).Followed := by
  obtain ⟨pre, post, hus, rfl, hset⟩ := getElem?_split hu
  set previous := q.sessions[u.session]?.bind fun session => session.targets.get? u.fileId
  have huploads : (q.start pre.length).uploads =
      pre ++ { u with point := .preparing previous } :: post := by
    rw [start_eq hu]
    exact hset _
  have hnext : ∀ earlier ∈ entries pre,
      (earlier.serial, earlier.fileId) ≠ (u.entry.serial, u.entry.fileId) := by
    intro earlier hearlier hsame
    obtain ⟨w, hw, rfl⟩ := List.mem_map.mp hearlier
    obtain ⟨hmem, hopen⟩ := List.mem_filter.mp hw
    obtain ⟨hsession, hfile⟩ := Prod.mk.inj hsame
    obtain ⟨i, hi⟩ := List.mem_iff_getElem?.mp hmem
    have hlt := (List.getElem?_eq_some_iff.mp hi).1
    -- of the uploads of a file, one that starts finds the earlier ones over
    have hget : (q.start pre.length).uploads[pre.length]? =
        some { u with point := .preparing previous } := by
      rw [huploads]
      simp
    have hdone := hserved.inOrder hlt (by rw [huploads, List.getElem?_append_left hlt, hi]) hget
      hsession.symm hfile.symm (by simp)
    rw [hdone] at hopen
    cases hopen
  unfold Isolate.Followed at h
  rw [hus, entries_append, entries_cons_of_open (by rw [hpoint]; rfl)] at h
  have hbegin := h.begin (by simp [Upload.entry, hpoint]) hnext
  refine Isolate.Followed.told (q := q) ?_ (holder_congr ?_ ?_) (by rw [start_eq hu]; rfl)
  · rw [huploads, entries_append, entries_cons_of_open rfl]
    exact hbegin
  · rw [start_eq hu]
    rfl
  · rw [sessions_start]

theorem isOpen_of_isLate {point : UploadPoint} (h : point.isLate = true) :
    point.isOpen = true ∧ point ≠ .queued := by
  cases point with
  | saving | moving | failed => exact ⟨rfl, fun heq => by cases heq⟩
  | queued | preparing | failing | responding | reported | done => cases h

theorem followed_report (h : q.Followed) (hu : q.uploads[k]? = some u)
    (hlate : u.point.isLate = true) (path : Option String) (savedToGallery : Bool)
    (error : Option String) : (q.report k u path savedToGallery error).Followed := by
  obtain ⟨pre, post, hus, rfl, hset⟩ := getElem?_split hu
  have hopen := isOpen_of_isLate hlate
  have huploads : (q.report pre.length u path savedToGallery error).uploads =
      pre ++ { u with point := .reported } :: post := hset _
  unfold Isolate.Followed at h
  rw [hus, entries_append, entries_cons_of_open hopen.1] at h
  refine Isolate.Followed.told (q := q) ?_ rfl rfl
  rw [huploads, entries_append, entries_cons_of_closed rfl]
  exact h.result (by simp [Upload.entry, hopen.2])
    (.fileUploadResult u.sessionId u.fileId path savedToGallery error)

theorem followed_drain (h : q.Followed) (hserved : Served q) (hu : q.uploads[k]? = some u)
    (hpoint : u.point = .reported) (hserved' : Served (q.drain k u)) :
    (q.drain k u).Followed := by
  have hrun : u.point.stage = .running := by
    rw [hpoint]
    rfl
  have hdone := @followed_setPoint _ _ _ h hu .done (by rw [hpoint]; rfl)
    (by rw [hpoint]; simp) (by simp)
  unfold Isolate.drain at hserved' ⊢
  cases hold : q.sessions[u.session]? with
  | none => exact hdone
  | some old =>
      rw [hold] at hserved'
      dsimp only at hserved' ⊢
      set q₁ : Isolate := { q.setPoint k u .done with
        sessions := q.sessions.set u.session
          { old with uploads := old.uploads.insert u.fileId (old.queue u.fileId).drain } }
      have h₁ : q₁.Followed := hdone.congr (holder_congr rfl (config_set hold rfl)) rfl rfl
      cases hqueue : (old.queue u.fileId).queue with
      | nil => exact h₁
      | cons next rest =>
          rw [hqueue] at hserved'
          obtain ⟨v, hv, -, hqueued⟩ := hserved.queued.next hold hu hrun
            (by rw [hqueue]; exact List.mem_cons_self)
          have hget : q₁.uploads[next]? = some v := hv
          exact followed_start h₁ hget hqueued hserved'

/-- The holders take the same uploads. -/
theorem accepts_eq_some {sessionId fileId : String} {s : ℕ}
    (h : q.accepts sessionId fileId = some s) : ∃ session, q.sessions[s]? = some session ∧
      q.holder.accepts sessionId fileId =
        some ⟨s, session.config.sessionId, session.config.fileNameMap.keys⟩ := by
  obtain ⟨hsession, hallowed⟩ := Option.filter_eq_some_iff.mp h
  unfold uploadAllowed at hallowed
  cases hget : q.sessions[s]? with
  | none => simp [hget] at hallowed
  | some session =>
      simp only [hget, Option.map_some, Option.isSome_filter, Option.any_some, Bool.and_eq_true,
        decide_eq_true_eq, Option.isSome_iff_exists, ← AssocMap.mem_keys_iff] at hallowed
      refine ⟨session, rfl, ?_⟩
      simp [SessionHolder.accepts, Isolate.holder, hsession, hget, hallowed]

theorem followed_enqueue (h : q.Followed) {s : ℕ} {sessionId fileId : String} {file : FileDto}
    (haccepts : q.accepts sessionId fileId = some s)
    (hserved : Served (q.enqueue s sessionId fileId file)) :
    (q.enqueue s sessionId fileId file).Followed := by
  obtain ⟨old, hold, hholder⟩ := accepts_eq_some haccepts
  unfold Isolate.enqueue at hserved ⊢
  rw [hold] at hserved ⊢
  dsimp only at hserved ⊢
  set v : Upload := ⟨s, sessionId, fileId, file, .queued, none⟩
  set q₁ : Isolate := { q with
    sessions := q.sessions.set s { old with
      uploads := old.uploads.insert fileId ((old.queue fileId).add q.uploads.length) }
    uploads := q.uploads ++ [v] }
  have h₁ : q₁.Followed := by
    refine h.event (.fileUpload sessionId fileId (.fileUpload sessionId fileId file)) [] ?_
      (List.append_nil _).symm
    have hq₁ : q₁.holder = q.holder := holder_congr rfl (config_set hold rfl)
    unfold Isolates.eventStep
    rw [hq₁, entries_append]
    dsimp only
    rw [hholder]
    rfl
  split
  · rename_i hidle
    rw [if_pos hidle] at hserved
    exact followed_start h₁ List.getElem?_concat_length rfl hserved
  · exact h₁

theorem holder_endSession (sessionId : String) :
    (q.endSession sessionId).holder = q.holder.clearSession sessionId := by
  unfold Isolate.endSession SessionHolder.clearSession
  have hany : (q.holder.session.any fun session => session.sessionId = sessionId) = true ↔
      (q.session.bind fun s => q.sessions[s]?).map (·.config.sessionId) = some sessionId := by
    cases hsession : q.session with
    | none => simp [Isolate.holder, hsession]
    | some s => cases hget : q.sessions[s]? <;> simp [Isolate.holder, hsession, hget]
  by_cases h : (q.session.bind fun s => q.sessions[s]?).map (·.config.sessionId) = some sessionId
  · rw [if_pos h, if_pos (hany.mpr h)]
    rfl
  · rw [if_neg h, if_neg fun hholder => h (hany.mp hholder)]

theorem holder_decided (config : Option HttpServerReceiveConfig) :
    (q.decided config).holder =
      q.holder.decide (config.map fun config => ⟨config.sessionId, config.fileNameMap⟩) := by
  cases config with
  | none => rfl
  | some config =>
      unfold Isolate.decided SessionHolder.decide
      cases hempty : config.fileNameMap.isEmpty with
      | true => simp [Option.filter, hempty, Isolate.holder, SessionHolder.clear]
      | false => simp [Option.filter, hempty, Isolate.holder, ReceiveSession.new]

/-- A message of the main isolate. -/
theorem Isolate.Followed.task {q' : Isolate} (h : q.Followed)
    (task : Isolates.BaseHttpServerTask)
    (hholder : q'.holder = ((httpServer HttpServerEvent).start q.holder task).1)
    (huploads : q'.uploads = q.uploads) (htold : q'.toMain = q.toMain) : q'.Followed := by
  unfold Isolate.Followed
  rw [hholder, huploads, htold]
  exact Serves.task task h

end Followed

/-! ## Every run -/

section Runs

variable {android : Bool} {p p' : State}

theorem followed_onEvent (h : p.isolate.Followed) (event : RsServerEvent)
    (hserved : Served (p.onEvent event).isolate) : (p.onEvent event).isolate.Followed := by
  cases event with
  | register ip info =>
      exact h.event (.other (.register ip info)) [⟨none, .register ip info⟩] rfl rfl
  | prepareUpload sessionId ip info certFingerprint files =>
      exact h.event
        (.prepareUpload sessionId (.prepareUpload sessionId ip info certFingerprint files))
        [⟨none, .prepareUpload sessionId ip info certFingerprint files⟩] rfl rfl
  | fileUpload sessionId fileId file =>
      unfold State.onEvent at hserved ⊢
      dsimp only at hserved ⊢
      cases haccepts : p.isolate.accepts sessionId fileId with
      | none => exact h
      | some s =>
          rw [haccepts] at hserved
          exact followed_enqueue h haccepts hserved
  | sessionEnd sessionId reason =>
      refine h.event (.sessionEnd sessionId (.sessionEnd sessionId reason))
        [⟨none, .sessionEnd sessionId reason⟩] ?_ (congrArg (· ++ _) (endSession_toMain sessionId))
      exact Prod.ext (holder_endSession sessionId).symm
        (Prod.ext (congrArg entries (endSession_uploads sessionId)).symm rfl)
  | prepareUploadAborted sessionId =>
      exact h.event (.other (.prepareUploadAborted sessionId))
        [⟨none, .prepareUploadAborted sessionId⟩] rfl rfl
  | cancelReceived ip sessionId =>
      exact h.event (.other (.cancelReceived ip sessionId)) [⟨none, .cancelReceived ip sessionId⟩]
        rfl rfl

theorem followed_handled {k : ℕ} {u : Upload} (h : p.isolate.Followed)
    (hserved : Served p.isolate) (hu : p.isolate.uploads[k]? = some u)
    (hp : Handled android p k u p') (hserved' : Served p'.isolate) : p'.isolate.Followed := by
  cases hp with
  | placed hpoint _ => exact followed_setTarget h hu hpoint _
  | unplaced hpoint | failed hpoint =>
      exact followed_setPoint h hu (by rw [hpoint]; rfl) (by simp [hpoint]) (by simp)
  | @responded target hpoint =>
      obtain ⟨point, hisolate, hor⟩ := respond_isolate android p k u target
      rw [hisolate]
      rcases hor with rfl | ⟨error, rfl⟩ <;>
        exact followed_setPoint h hu (by rw [hpoint]; rfl) (by simp [hpoint]) (by simp)
  | saved hlate hpoint =>
      have hopen := isOpen_of_isLate hlate
      rcases hpoint with ⟨target, -, rfl⟩ | ⟨-, error, rfl⟩ <;>
        exact followed_setPoint h hu (by rw [hopen.1]; rfl) hopen.2 (by simp)
  | reported hlate => exact followed_report h hu hlate _ _ _
  | drained hpoint => exact followed_drain h hserved hu hpoint hserved'

theorem followed_step {l : Label} (h : p.isolate.Followed) (hserved : Served p.isolate)
    (hp : step android p l = some p') : p'.isolate.Followed := by
  have hserved' := served_step hserved hp
  cases step_cases hp with
  | bridge hsame => exact hsame ▸ h
  | decision config hp =>
      obtain rfl := hp
      exact h.task (.prepareUploadDecision _) (holder_decided config) (decided_uploads config)
        (decided_toMain config)
  | cancel sessionId hp =>
      obtain rfl := hp
      exact h.task (.cancelSession sessionId) (holder_endSession sessionId)
        (endSession_uploads sessionId) (endSession_toMain sessionId)
  | event event sink _ hp =>
      obtain rfl := hp
      exact followed_onEvent (p := { p with bridge := { p.bridge with sink } }) h event hserved'
  | upload k u hu hp => exact followed_handled h hserved hu hp hserved'

/-- **The two descriptions of the handler agree**: in every run the handler of the server has
the uploads that are not reported, and what the isolate told the main isolate is what an
orderly handler sends. -/
theorem followed_of_reach (h : Reach (step android) .init p) : p.isolate.Followed := by
  refine (h.invariant (I := fun p => Served p.isolate ∧ p.isolate.Followed)
    ⟨served_new, .started⟩ ?_).2
  rintro m l t ⟨hserved, hfollowed⟩ - hstep
  exact ⟨served_step hserved hstep, followed_step hfollowed hserved hstep⟩

theorem behaves_of_reach (h : Reach (step android) .init p) :
    Isolates.Behaves (httpServer HttpServerEvent) (Isolates.ServerGood HttpServerEvent)
      Isolates.BaseHttpServerTask.start (Isolates.ServerPoint.serving (entries p.isolate.uploads))
      (.event .started :: p.isolate.toMain.map fun e => replyOf e.event) :=
  (followed_of_reach h).behaves

end Runs

end Receiving

end FireBoxTransfer

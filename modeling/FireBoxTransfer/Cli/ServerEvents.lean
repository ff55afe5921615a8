import FireBoxTransfer.Bridge.Channels
import FireBoxTransfer.Core.ServerV2Files
import FireBoxTransfer.Core.ServerV2PrepareAborted

/-!
# What the events of the server say

An application that takes the events of the v2 server one after the other
learns of a session three times: its request is offered, its files arrive, it
ends. Each request is offered once, files arrive only of sessions that were
offered with them, a session ends only after it was activated, and a request
that was aborted is not offered afterwards.
-/

namespace FireBoxTransfer

open TaskPool Runs

/-! ## §1  What an event says -/

/-- The request that an event offers: its session and its files. -/
def ServerEventV2.offer? : ServerEventV2 → Option (String × AssocMap String FileDto)
  | .prepareUpload sessionId _ _ _ files _ => some (sessionId, files)
  | _ => none

/-- The file that an event announces. -/
def ServerEventV2.upload? : ServerEventV2 → Option (String × String)
  | .fileUpload sessionId fileId _ _ => some (sessionId, fileId)
  | _ => none

/-- The requests that a list of events offers. -/
def offers (events : List ServerEventV2) : List (String × AssocMap String FileDto) :=
  events.filterMap ServerEventV2.offer?

/-- The file was offered for this session. -/
def OfferedFile (events : List ServerEventV2) (sid fid : String) (file : FileDto) : Prop :=
  ∃ files, (sid, files) ∈ offers events ∧ files.get? fid = some file

theorem offers_append (events new : List ServerEventV2) :
    offers (events ++ new) = offers events ++ offers new :=
  List.filterMap_append

theorem OfferedFile.append {events : List ServerEventV2} {sid fid : String} {file : FileDto}
    (h : OfferedFile events sid fid file) (new : List ServerEventV2) :
    OfferedFile (events ++ new) sid fid file := by
  obtain ⟨files, hm, hf⟩ := h
  refine ⟨files, ?_, hf⟩
  rw [offers_append]
  exact List.mem_append_left _ hm

theorem mem_offers {events : List ServerEventV2} {sid : String}
    {files : AssocMap String FileDto} : (sid, files) ∈ offers events ↔
      ∃ ip info cert tx, .prepareUpload sid ip info cert files tx ∈ events := by
  unfold offers
  rw [List.mem_filterMap]
  constructor
  · rintro ⟨event, hm, he⟩
    cases event with
    | prepareUpload sid' ip info cert files' tx =>
        cases he
        exact ⟨ip, info, cert, tx, hm⟩
    | _ => cases he
  · rintro ⟨ip, info, cert, tx, hm⟩
    exact ⟨_, hm, rfl⟩

/-! ## §2  What one step sends -/

/-- `cancel` sends the end of a session, or the news of a cancel. -/
def Task.CancelNews (t : Task) : Prop :=
  ∀ event, t = .cancel (.send event) →
    (∃ sid, event = .sessionEnd sid .cancelled) ∨ ∃ ip sid, event = .cancelReceived ip sid

/-- The events that a step of task `t` puts into the channel. -/
inductive Emits (X : Externals) (t : Task) (o : Step) : List ServerEventV2 → Prop
  | nothing : Emits X t o []
  | request {ctx rx} (ht : t = .prepareUpload (.send ctx rx)) :
      Emits X t o [prepareEvent X ctx rx]
  | upload {ctx} (ht : t = .upload (.send ctx)) :
      Emits X t o [.fileUpload ctx.sessionId ctx.fileId ctx.file ctx.targetRx]
  | ended {sid reason} (ht : t.ending = some (sid, reason)) :
      Emits X t o [.sessionEnd sid reason]
  | aborted {sid} (ht : t = .cleanup (.aborted sid)) :
      Emits X t o [.prepareUploadAborted sid]
  | received {ip sid} (ht : t = .cancel (.send (.cancelReceived ip sid))) :
      Emits X t o [.cancelReceived ip sid]

/-- The step appends exactly these events. -/
def Appends (s s' : ServerV2) (new : List ServerEventV2) : Prop :=
  s'.events.queue = s.events.queue ++ new

theorem Appends.same {s s' : ServerV2} (h : s'.events = s.events) : Appends s s' [] := by
  rw [Appends, h, List.append_nil]

theorem Appends.send {s s' : ServerV2} {event : ServerEventV2}
    (h : s.events.send event = some (.ok s'.events)) : Appends s s' [event] := by
  rw [Appends, EventChannel.send_eq_ok h]

theorem Appends.unique {s s' : ServerV2} {new new' : List ServerEventV2}
    (h : Appends s s' new) (h' : Appends s s' new') : new = new' :=
  List.append_cancel_left (h.symm.trans h')

/-- **What a step sends** is up to the task that makes it. -/
theorem taskStep_emits {X : Externals} {s : ServerV2} {t : Task} {a : Act} {o : Step}
    (hnews : t.CancelNews) (h : taskStep X s t a = some o) :
    ∃ new, Emits X t o new ∧ Appends s o.shared new := by
  cases taskStep_cases h with
  | asked hsend => exact ⟨_, .request rfl, .send hsend⟩
  | offered hsend => exact ⟨_, .upload rfl, .send hsend⟩
  | endSent hsend | guardEndSent hsend => exact ⟨_, .ended rfl, .send hsend⟩
  | abortSent hsend => exact ⟨_, .aborted rfl, .send hsend⟩
  | @newsSent event events hsend =>
      rcases hnews event rfl with ⟨sid, rfl⟩ | ⟨ip, sid, rfl⟩
      · exact ⟨_, .ended rfl, .send hsend⟩
      · exact ⟨_, .received rfl, .send hsend⟩
  | _ => exact ⟨[], .nothing, .same rfl⟩

theorem taskStep_cancelNews {X : Externals} {s : ServerV2} {t : Task} {a : Act} {o : Step}
    (h : taskStep X s t a = some o) : ∀ u ∈ o.task :: o.spawned, u.CancelNews :=
  taskStep_sends (fun sid => .inl ⟨sid, rfl⟩) (fun ip sid => .inr ⟨ip, sid, rfl⟩) h

theorem envStep_cancelNews {s s' : ServerV2} {e : Env} {ts : List Task}
    (h : envStep s e = some (s', ts)) : ∀ t ∈ ts, t.CancelNews := by
  cases envStep_cases h with
  | prepareUpload | upload | cancel | cancelV2Session => simp [Task.CancelNews]
  | _ => exact fun _ ht => absurd ht List.not_mem_nil

theorem Task.CancelNews.only {t : Task} (h : t.CancelNews) : t.CancelOnly := by
  intro event he
  rcases h event he with ⟨sid, rfl⟩ | ⟨ip, sid, rfl⟩ <;> rfl

/-! ## §3  Where the tasks come from -/

section Tasks

variable {X : Externals} {s s' : ServerV2} {t u : Task} {a : Act} {o : Step}
  {r r' : Role} {rs : List Role} {seen : List Seen}

/-- A handler that is about to offer its request has just claimed the slot. -/
theorem taskStep_asking (h : taskStep X s t a = some o) {ctx : PrepareCtx} {rx : ℕ}
    (hu : Task.prepareUpload (.send ctx rx) ∈ o.task :: o.spawned) :
    .claimed ctx.sessionId ∈ o.seen := by
  cases taskStep_cases h with
  | claimed =>
      cases List.mem_singleton.mp hu
      exact List.mem_singleton_self _
  | _ => simp [abandonPending] at hu

/-- One that waits for the decision has just offered its request. -/
theorem taskStep_asked (h : taskStep X s t a = some o) {ctx : PrepareCtx} {rx : ℕ}
    (hu : Task.prepareUpload (.select ctx rx) ∈ o.task :: o.spawned) :
    Appends s o.shared [prepareEvent X ctx rx] := by
  cases taskStep_cases h with
  | asked hsend =>
      cases List.mem_singleton.mp hu
      exact .send hsend
  | _ => simp [abandonPending] at hu

/-- One that is about to write its session has just read the decision; the
files are among those of its request. -/
theorem taskStep_granted (h : taskStep X s t a = some o) {ctx : PrepareCtx}
    {files : AssocMap String SessionFileV2}
    (hu : Task.prepareUpload (.activate ctx files) ∈ o.task :: o.spawned) :
    (∃ rx, t = .prepareUpload (.select ctx rx)) ∧ ∀ fid file, files.get? fid = some file →
      ctx.payload.files.get? fid = some file.dto := by
  cases taskStep_cases h with
  | accepted =>
      cases List.mem_singleton.mp hu
      exact ⟨⟨_, rfl⟩, fun _ _ hf => (acceptedFiles_eq_some hf).2⟩
  | _ => simp [abandonPending] at hu

/-- The news of an abort follows the clean-up of the slot. -/
theorem taskStep_aborting (h : taskStep X s t a = some o) {sid : String}
    (hu : Task.cleanup (.aborted sid) ∈ o.task :: o.spawned) :
    t = .cleanup (.clear sid) ∧ o.task.role.settles = none ∧ o.spawned = [] := by
  cases taskStep_cases h with
  | guardCleared =>
      cases List.mem_singleton.mp hu
      exact ⟨rfl, rfl, rfl⟩
  | _ => simp [abandonPending] at hu

/-- What is known of a file of the active session stays: a step starts or
settles its upload. -/
theorem Move.active_dto (h : Move X s r a s' r' rs seen) {session' : UploadSessionV2}
    {fid : String} {file' : SessionFileV2} (hs' : s'.session = some (.active session'))
    (hf' : session'.files.get? fid = some file') :
    (∃ session file, s.session = some (.active session) ∧
        session.sessionId = session'.sessionId ∧ session.files.get? fid = some file ∧
        file.dto = file'.dto) ∨
      ∃ ctx, r = .accepting ctx session'.files ∧ ctx.sessionId = session'.sessionId := by
  have hsame : s'.session = s.session → (∃ session file, s.session = some (.active session) ∧
        session.sessionId = session'.sessionId ∧ session.files.get? fid = some file ∧
        file.dto = file'.dto) ∨
      ∃ ctx, r = .accepting ctx session'.files ∧ ctx.sessionId = session'.sessionId := by
    intro heq
    exact .inl ⟨session', file', heq ▸ hs', rfl, hf', rfl⟩
  cases h with
  | claim _ hs => rw [hs] at hs'; cases hs'
  | clear _ hs =>
      rw [hs, clearPendingSession_eq_active] at hs'
      exact .inl ⟨session', file', hs', rfl, hf', rfl⟩
  | activate hs =>
      rw [hs] at hs'
      obtain rfl := SessionStateV2.active.inj (Option.some.inj hs')
      exact .inr ⟨_, rfl, rfl⟩
  | start hb hs =>
      rename_i ip sid₀ fid₀ token st dto _ _
      obtain ⟨session, file, hsess, rfl, -, hf, -, -, -, rfl⟩ := beginUpload_eq_ok.mp hb
      rw [hs] at hs'
      obtain rfl := SessionStateV2.active.inj (Option.some.inj hs')
      by_cases hfid : fid = fid₀
      · subst hfid
        rw [AssocMap.get?_modify_self, hf] at hf'
        obtain rfl := Option.some.inj hf'
        exact .inl ⟨session, file, hsess, rfl, hf, rfl⟩
      · rw [AssocMap.get?_modify_ne hfid] at hf'
        exact .inl ⟨session, file', hsess, rfl, hf', rfl⟩
  | finalize _ hs =>
      rename_i sid₀ fid₀ result _ _ _
      rw [hs] at hs'
      obtain ⟨session, hsess, ⟨-, rfl⟩ | ⟨rfl, -, rfl⟩⟩ := finalizeFile_eq_active hs'
      · exact .inl ⟨_, file', hsess, rfl, hf', rfl⟩
      · by_cases hfid : fid = fid₀
        · subst hfid
          rw [AssocMap.get?_modify_self] at hf'
          obtain ⟨file, hf, rfl⟩ := Option.map_eq_some_iff.mp hf'
          refine .inl ⟨session, file, hsess, rfl, hf, ?_⟩
          rw [SessionFileV2.finalize]
          split_ifs <;> rfl
        · rw [AssocMap.get?_modify_ne hfid] at hf'
          exact .inl ⟨session, file', hsess, rfl, hf', rfl⟩
  | remove _ _ _ hs => rw [hs] at hs'; cases hs'
  | rest _ _ hq | abandon _ hq => exact hsame hq.session
  | accept hq => exact hsame hq.session
  | reserve _ _ hs | cancelPending _ hs => exact hsame hs
  | _ hq => exact hsame hq.session

theorem activating_of_role {ctx : PrepareCtx} {files : AssocMap String SessionFileV2}
    (h : t.role = .accepting ctx files) : t = .prepareUpload (.activate ctx files) := by
  cases t with
  | prepareUpload pc =>
      cases pc <;> simp [Task.role] at h
      case activate => rw [h.1, h.2]
  | upload pc => cases pc <;> simp [Task.role] at h
  | cancel pc => cases pc <;> simp [Task.role] at h
  | cleanup pc => cases pc <;> simp [Task.role] at h
  | answered result =>
      rcases answeredRole_cases result with hr | ⟨_, hr⟩ <;> simp [Task.role, hr] at h
  | _ => simp [Task.role] at h

/-- The start of an upload is noted; its file is one of the active session. -/
theorem taskStep_send {ctx : UploadCtx} (h : taskStep X s t a = some o)
    (hu : Task.upload (.send ctx) ∈ o.task :: o.spawned) :
    ∃ clientInfo token st,
      t = .upload (.begin clientInfo ctx.sessionId ctx.fileId token) ∧ a = .go ∧
      beginUpload clientInfo.ip ctx.sessionId ctx.fileId token s.session = .ok (st, ctx.file) ∧
      o.seen = [.uploadStarted ctx.sessionId ctx.fileId] := by
  cases taskStep_cases h with
  | begun hb =>
      cases List.mem_singleton.mp hu
      exact ⟨_, _, _, rfl, rfl, hb, rfl⟩
  | _ => simp [abandonPending] at hu

/-- A task comes to report the end of a session by taking it out of the slot. -/
theorem taskStep_ending (h : taskStep X s t a = some o) (hu : u ∈ o.task :: o.spawned)
    {sid : String} {reason : SessionEndReasonV2} (he : u.ending = some (sid, reason)) :
    ∃ session, s.session = some (.active session) ∧ session.sessionId = sid := by
  cases taskStep_cases h with
  | finishedLast hended | guardFinishedLast hended =>
      obtain rfl := List.mem_singleton.mp hu
      cases he
      exact (finalizeFile_eq_true hended).2
  | cancelledActive hc =>
      obtain rfl := List.mem_singleton.mp hu
      cases he
      obtain ⟨-, session, hs, hid, -⟩ := cancelActive_eq_true hc
      exact ⟨session, hs, hid⟩
  | askLost | undecided | withdrawn | dropSend | dropSelect | dropActivate | dropOffer
  | dropTarget | dropSave =>
      rcases List.mem_pair.mp hu with rfl | rfl <;> cases he
  | _ =>
      obtain rfl := List.mem_singleton.mp hu
      cases he

end Tasks

/-! ## §4  The history of the events -/

/-- The request of this session is over: no handler has its entry any more. -/
def Over (c : ServerPool) (sid : String) : Prop :=
  .claimed sid ∈ c.log ∧ ∀ t ∈ c.tasks, t.role.settles ≠ some sid

/-- What is known of a server that has sent these events. A request is offered
once, when its handler has the slot, and not after the news of its abort; files
arrive only of sessions that were offered with them, once their upload was
started; a session ends only after it was activated. -/
structure EventHistory (X : Externals) (events : List ServerEventV2) (c : ServerPool) :
    Prop where
  once : ((offers events).map Prod.fst).Nodup
  claimed : ∀ {sid files}, (sid, files) ∈ offers events → .claimed sid ∈ c.log
  asking : ∀ {ctx rx files}, Task.prepareUpload (.send ctx rx) ∈ c.tasks →
    (ctx.sessionId, files) ∉ offers events
  asked : ∀ {ctx rx}, Task.prepareUpload (.select ctx rx) ∈ c.tasks →
    (ctx.sessionId, ctx.payload.files) ∈ offers events
  granted : ∀ {ctx files fid file}, Task.prepareUpload (.activate ctx files) ∈ c.tasks →
    files.get? fid = some file → OfferedFile events ctx.sessionId fid file.dto
  active : ∀ {session fid file}, c.shared.session = some (.active session) →
    session.files.get? fid = some file → OfferedFile events session.sessionId fid file.dto
  sending : ∀ {ctx}, Task.upload (.send ctx) ∈ c.tasks →
    OfferedFile events ctx.sessionId ctx.fileId ctx.file ∧
      .uploadStarted ctx.sessionId ctx.fileId ∈ c.log
  uploads : ∀ {sid fid file tx}, .fileUpload sid fid file tx ∈ events →
    OfferedFile events sid fid file ∧ .uploadStarted sid fid ∈ c.log
  ending : ∀ {t sid reason}, t ∈ c.tasks → t.ending = some (sid, reason) →
    .activated sid ∈ c.log
  ended : ∀ {sid reason}, .sessionEnd sid reason ∈ events → .activated sid ∈ c.log
  aborting : ∀ {sid}, Task.cleanup (.aborted sid) ∈ c.tasks → Over c sid
  aborted : ∀ {sid}, .prepareUploadAborted sid ∈ events → Over c sid
  ordered : events.Pairwise fun before after => ∀ sid, before = .prepareUploadAborted sid →
    after.offer?.map Prod.fst ≠ some sid

theorem EventHistory.init (X : Externals) (pin : Option String) (verify : Bool) (cap : ℕ) :
    EventHistory X [] (.init pin verify cap) where
  once := List.nodup_nil
  claimed h := absurd h List.not_mem_nil
  asking h := absurd h List.not_mem_nil
  asked h := absurd h List.not_mem_nil
  granted h := absurd h List.not_mem_nil
  active h := by cases h
  sending h := absurd h List.not_mem_nil
  uploads h := absurd h List.not_mem_nil
  ending h := absurd h List.not_mem_nil
  ended h := absurd h List.not_mem_nil
  aborting h := absurd h List.not_mem_nil
  aborted h := absurd h List.not_mem_nil
  ordered := .nil

/-! ## §5  It is kept -/

section Steps

variable {X : Externals} {events new : List ServerEventV2} {c : ServerPool} {i : ℕ}
  {t u : Task} {a : Act} {o : Step} {sid : String}

/-- A task after a step: the one that moved, one it started, or another one. -/
theorem advance_cases (ht : c.tasks[i]? = some t) (hu : u ∈ (c.advance i o).tasks) :
    u ∈ o.task :: o.spawned ∨ ∃ j, j ≠ i ∧ c.tasks[j]? = some u := by
  obtain ⟨j, hj⟩ := List.getElem?_of_mem hu
  rcases getElem?_advance ht hj with ⟨-, rfl⟩ | ⟨hne, hold⟩ | ⟨k, -, hk⟩
  · exact .inl List.mem_cons_self
  · exact .inr ⟨j, hne, hold⟩
  · exact .inl (List.mem_cons_of_mem _ (List.mem_of_getElem? hk))

/-- A step of task `t`, in a server whose slot has its owner, and the events it
sends. -/
structure SendStep (X : Externals) (c : ServerPool) (i : ℕ) (t : Task) (a : Act) (o : Step)
    (new : List ServerEventV2) : Prop where
  own : (ownership X).Holds c
  task : c.tasks[i]? = some t
  news : t.CancelNews
  step : taskStep X c.shared t a = some o
  emits : Emits X t o new
  appends : Appends c.shared o.shared new

theorem SendStep.mem (hs : SendStep X c i t a o new) : t ∈ c.tasks :=
  List.mem_of_getElem? hs.task

/-- A request that is over stays over: its session is not claimed again. -/
theorem Over.task (h : Over c sid) (hs : SendStep X c i t a o new) :
    Over (c.advance i o) sid := by
  refine ⟨List.mem_append_left _ h.1, fun u hu => ?_⟩
  rcases mem_advance_new hu with hu | hu
  · intro hr
    have hm := taskStep_move hs.step
    rcases hm.settles_new (mem_roles hu) hr with ⟨hold, -⟩ | ⟨hfree, p, hp, rfl, -⟩
    · exact h.2 t hs.mem hold
    · -- a claim is made with an identifier that was never claimed
      rcases hm.pending_new hp with hold | hclaim
      · rw [hfree] at hold
        cases hold
      · exact (hs.own.loc hs.task).fresh (hm.claimed_mem hclaim).1 h.1
  · exact h.2 u hu

/-- Beside a task that has an entry to settle no other one has. -/
theorem SendStep.others (hs : SendStep X c i t a o new) (hr : t.role.settles ≠ none) {j : ℕ}
    (hne : j ≠ i) (hj : c.tasks[j]? = some u) : u.role.settles = none := by
  have hapart : OwnershipApart t.role u.role := hs.own.pair hne.symm hs.task hj
  exact hapart.settles.resolve_left hr

/-- Whoever has an entry to settle has claimed it. -/
theorem SendStep.claimed (hs : SendStep X c i t a o new) (hr : t.role.settles = some sid) :
    .claimed sid ∈ c.log := by
  obtain ⟨p, hp, rfl⟩ := (hs.own.loc hs.task).settles hr
  exact (hs.own.glob.pending hp).1

theorem SendStep.over_of_clear (hs : SendStep X c i t a o new)
    (hr : t.role.settles = some sid) (hnone : o.task.role.settles = none)
    (hsp : o.spawned = []) : Over (c.advance i o) sid := by
  refine ⟨List.mem_append_left _ (hs.claimed hr), fun u hu hu' => ?_⟩
  rcases advance_cases hs.task hu with hu | ⟨j, hne, hj⟩
  · rw [hsp, List.mem_singleton] at hu
    subst hu
    rw [hnone] at hu'
    cases hu'
  · rw [hs.others (by simp [hr]) hne hj] at hu'
    cases hu'

/-- Only the handler of a request offers it. -/
theorem Emits.offer (he : Emits X t o new) {files : AssocMap String FileDto}
    (hm : (sid, files) ∈ offers new) :
    ∃ ctx rx, t = .prepareUpload (.send ctx rx) ∧ ctx.sessionId = sid := by
  cases he with
  | request ht =>
      have hone := List.mem_singleton.mp hm
      exact ⟨_, _, ht, (Prod.mk.inj hone).1.symm⟩
  | _ => exact absurd hm List.not_mem_nil

theorem Emits.offers_nodup (he : Emits X t o new) : ((offers new).map Prod.fst).Nodup := by
  cases he with
  | request => exact List.nodup_singleton _
  | _ => exact List.nodup_nil

namespace EventHistory

theorem once_task (h : EventHistory X events c) (hs : SendStep X c i t a o new) :
    ((offers (events ++ new)).map Prod.fst).Nodup := by
  rw [offers_append, List.map_append, List.nodup_append]
  refine ⟨h.once, hs.emits.offers_nodup, ?_⟩
  intro x hx y hy
  obtain ⟨⟨_, files⟩, hold, rfl⟩ := List.mem_map.mp hx
  obtain ⟨⟨_, files'⟩, hnew, rfl⟩ := List.mem_map.mp hy
  obtain ⟨ctx, rx, rfl, rfl⟩ := hs.emits.offer hnew
  rintro rfl
  exact h.asking hs.mem hold

theorem claimed_task (h : EventHistory X events c) (hs : SendStep X c i t a o new)
    {files : AssocMap String FileDto} (hm : (sid, files) ∈ offers (events ++ new)) :
    .claimed sid ∈ (c.advance i o).log := by
  refine List.mem_append_left _ ?_
  rw [offers_append, List.mem_append] at hm
  rcases hm with hold | hnew
  · exact h.claimed hold
  · obtain ⟨ctx, rx, rfl, rfl⟩ := hs.emits.offer hnew
    exact hs.claimed rfl

theorem asking_task (h : EventHistory X events c) (hs : SendStep X c i t a o new)
    {ctx : PrepareCtx} {rx : ℕ} {files : AssocMap String FileDto}
    (hu : Task.prepareUpload (.send ctx rx) ∈ (c.advance i o).tasks) :
    (ctx.sessionId, files) ∉ offers (events ++ new) := by
  intro hm
  rw [offers_append, List.mem_append] at hm
  rcases advance_cases hs.task hu with hu | ⟨j, hne, hj⟩
  · -- it claimed the slot in this step
    have hclaim := ((taskStep_move hs.step).claimed_mem (taskStep_asking hs.step hu)).1
    rcases hm with hold | hnew
    · exact (hs.own.loc hs.task).fresh hclaim (h.claimed hold)
    · obtain ⟨ctx', rx', rfl, -⟩ := hs.emits.offer hnew
      cases hclaim
  · rcases hm with hold | hnew
    · exact h.asking (List.mem_of_getElem? hj) hold
    · obtain ⟨ctx', rx', rfl, -⟩ := hs.emits.offer hnew
      cases hs.others (by simp [Task.role, Role.settles]) hne hj

theorem asked_task (h : EventHistory X events c) (hs : SendStep X c i t a o new)
    {ctx : PrepareCtx} {rx : ℕ}
    (hu : Task.prepareUpload (.select ctx rx) ∈ (c.advance i o).tasks) :
    (ctx.sessionId, ctx.payload.files) ∈ offers (events ++ new) := by
  rw [offers_append]
  rcases advance_cases hs.task hu with hu | ⟨j, -, hj⟩
  · rw [hs.appends.unique (taskStep_asked hs.step hu)]
    exact List.mem_append_right _ (List.mem_singleton_self _)
  · exact List.mem_append_left _ (h.asked (List.mem_of_getElem? hj))

theorem granted_task (h : EventHistory X events c) (hs : SendStep X c i t a o new)
    {ctx : PrepareCtx} {files : AssocMap String SessionFileV2} {fid : String}
    {file : SessionFileV2}
    (hu : Task.prepareUpload (.activate ctx files) ∈ (c.advance i o).tasks)
    (hf : files.get? fid = some file) :
    OfferedFile (events ++ new) ctx.sessionId fid file.dto := by
  apply OfferedFile.append
  rcases advance_cases hs.task hu with hu | ⟨j, -, hj⟩
  · obtain ⟨⟨rx, rfl⟩, hfiles⟩ := taskStep_granted hs.step hu
    have hin := hfiles _ _ hf
    exact ⟨ctx.payload.files, h.asked hs.mem, hin⟩
  · exact h.granted (List.mem_of_getElem? hj) hf

theorem active_task (h : EventHistory X events c) (hs : SendStep X c i t a o new)
    {session : UploadSessionV2} {fid : String} {file : SessionFileV2}
    (hact : o.shared.session = some (.active session))
    (hf : session.files.get? fid = some file) :
    OfferedFile (events ++ new) session.sessionId fid file.dto := by
  apply OfferedFile.append
  rcases (taskStep_move hs.step).active_dto hact hf with
    ⟨session₀, file₀, hs₀, hid, hf₀, hdto⟩ | ⟨ctx, hr, hid⟩
  · rw [← hid, ← hdto]
    exact h.active hs₀ hf₀
  · obtain rfl := activating_of_role hr
    rw [← hid]
    exact h.granted hs.mem hf

theorem sending_task (h : EventHistory X events c) (hs : SendStep X c i t a o new)
    {ctx : UploadCtx} (hu : Task.upload (.send ctx) ∈ (c.advance i o).tasks) :
    OfferedFile (events ++ new) ctx.sessionId ctx.fileId ctx.file ∧
      .uploadStarted ctx.sessionId ctx.fileId ∈ (c.advance i o).log := by
  rcases advance_cases hs.task hu with hu | ⟨j, -, hj⟩
  · obtain ⟨clientInfo, token, st, rfl, -, hb, hseen⟩ := taskStep_send hs.step hu
    obtain ⟨session, file, hsess, hid, -, hf, -, -, hdto, -⟩ := beginUpload_eq_ok.mp hb
    constructor
    · rw [hdto, ← hid]
      exact (h.active hsess hf).append new
    · refine List.mem_append_right _ ?_
      rw [hseen]
      exact List.mem_singleton_self _
  · obtain ⟨hfile, hstart⟩ := h.sending (List.mem_of_getElem? hj)
    exact ⟨hfile.append new, List.mem_append_left _ hstart⟩

theorem uploads_task (h : EventHistory X events c) (hs : SendStep X c i t a o new)
    {fid : String} {file : FileDto} {tx : ℕ}
    (hm : .fileUpload sid fid file tx ∈ events ++ new) :
    OfferedFile (events ++ new) sid fid file ∧ .uploadStarted sid fid ∈ (c.advance i o).log := by
  have hback : OfferedFile events sid fid file ∧ .uploadStarted sid fid ∈ c.log := by
    rcases List.mem_append.mp hm with hold | hnew
    · exact h.uploads hold
    · cases hs.emits with
      | upload hsend =>
          cases List.mem_singleton.mp hnew
          exact h.sending (hsend ▸ hs.mem)
      | nothing => cases hnew
      | _ => cases List.mem_singleton.mp hnew
  exact ⟨hback.1.append new, List.mem_append_left _ hback.2⟩

theorem ending_task (h : EventHistory X events c) (hs : SendStep X c i t a o new)
    {reason : SessionEndReasonV2} (hu : u ∈ (c.advance i o).tasks)
    (hend : u.ending = some (sid, reason)) : .activated sid ∈ (c.advance i o).log := by
  refine List.mem_append_left _ ?_
  rcases advance_cases hs.task hu with hu | ⟨j, -, hj⟩
  · obtain ⟨session, hsess, hid⟩ := taskStep_ending hs.step hu hend
    rw [← hid]
    exact hs.own.glob.active hsess
  · exact h.ending (List.mem_of_getElem? hj) hend

theorem ended_task (h : EventHistory X events c) (hs : SendStep X c i t a o new)
    {reason : SessionEndReasonV2} (hm : .sessionEnd sid reason ∈ events ++ new) :
    .activated sid ∈ (c.advance i o).log := by
  refine List.mem_append_left _ ?_
  rcases List.mem_append.mp hm with hold | hnew
  · exact h.ended hold
  · cases hs.emits with
    | ended hend =>
        cases List.mem_singleton.mp hnew
        exact h.ending hs.mem hend
    | nothing => cases hnew
    | _ => cases List.mem_singleton.mp hnew

theorem aborting_task (h : EventHistory X events c) (hs : SendStep X c i t a o new)
    (hu : Task.cleanup (.aborted sid) ∈ (c.advance i o).tasks) : Over (c.advance i o) sid := by
  rcases advance_cases hs.task hu with hu | ⟨j, -, hj⟩
  · obtain ⟨rfl, hnone, hsp⟩ := taskStep_aborting hs.step hu
    exact hs.over_of_clear rfl hnone hsp
  · exact (h.aborting (List.mem_of_getElem? hj)).task hs

theorem aborted_task (h : EventHistory X events c) (hs : SendStep X c i t a o new)
    (hm : .prepareUploadAborted sid ∈ events ++ new) : Over (c.advance i o) sid := by
  rcases List.mem_append.mp hm with hold | hnew
  · exact (h.aborted hold).task hs
  · cases hs.emits with
    | aborted hab =>
        cases List.mem_singleton.mp hnew
        exact (h.aborting (hab ▸ hs.mem)).task hs
    | nothing => cases hnew
    | _ => cases List.mem_singleton.mp hnew

theorem ordered_task (h : EventHistory X events c) (hs : SendStep X c i t a o new) :
    (events ++ new).Pairwise fun before after => ∀ sid, before = .prepareUploadAborted sid →
      after.offer?.map Prod.fst ≠ some sid := by
  rw [List.pairwise_append]
  refine ⟨h.ordered, ?_, ?_⟩
  · cases hs.emits with
    | nothing => exact .nil
    | _ => exact List.pairwise_singleton _ _
  · rintro before hbefore after hafter sid rfl hoff
    -- the handler of a request that is over has nothing to offer
    obtain ⟨⟨sid', files⟩, hfiles, rfl⟩ := Option.map_eq_some_iff.mp hoff
    have hnew : (sid', files) ∈ offers new := List.mem_filterMap.mpr ⟨after, hafter, hfiles⟩
    obtain ⟨ctx, rx, rfl, rfl⟩ := hs.emits.offer hnew
    exact (h.aborted hbefore).2 _ hs.mem rfl

/-- A step of a task keeps the history. -/
theorem task (h : EventHistory X events c) (hs : SendStep X c i t a o new) :
    EventHistory X (events ++ new) (c.advance i o) where
  once := h.once_task hs
  claimed := h.claimed_task hs
  asking := h.asking_task hs
  asked := h.asked_task hs
  granted := h.granted_task hs
  active := h.active_task hs
  sending := h.sending_task hs
  uploads := h.uploads_task hs
  ending := h.ending_task hs
  ended := h.ended_task hs
  aborting := h.aborting_task hs
  aborted := h.aborted_task hs
  ordered := h.ordered_task hs

/-- Whatever else happens leaves the slot and the notes alone; at most a
registration is sent. -/
theorem env (h : EventHistory X events c) {e : Env} {s : ServerV2} {ts : List Task}
    (he : envStep c.shared e = some (s, ts))
    (hnew : ∀ event ∈ new, ∃ ip info, event = .register ip info) :
    EventHistory X (events ++ new) (c.enter s ts) := by
  obtain ⟨hquiet, hidle⟩ := envStep_quiet he
  have hoffers : offers (events ++ new) = offers events := by
    have hnone : offers new = [] := by
      refine List.filterMap_eq_nil_iff.mpr fun event hm => ?_
      obtain ⟨ip, info, rfl⟩ := hnew event hm
      rfl
    rw [offers_append, hnone, List.append_nil]
  have hevent : ∀ {event}, event ∈ events ++ new → (∀ ip info, event ≠ .register ip info) →
      event ∈ events := by
    intro event hm hne
    rcases List.mem_append.mp hm with hm | hm
    · exact hm
    · obtain ⟨ip, info, rfl⟩ := hnew event hm
      exact absurd rfl (hne ip info)
  have hbusy : ∀ {u : Task}, u ∈ (c.enter s ts).tasks → u.role.idle = false → u ∈ c.tasks := by
    intro u hu hr
    rcases List.mem_append.mp hu with hu | hu
    · exact hu
    · rw [hidle u hu] at hr
      cases hr
  have hover : ∀ {sid}, Over c sid → Over (c.enter s ts) sid := by
    intro sid hsid
    refine ⟨hsid.1, fun u hu => ?_⟩
    rcases List.mem_append.mp hu with hu | hu
    · exact hsid.2 u hu
    · rw [Role.settles_of_idle (hidle u hu)]
      exact (Option.some_ne_none _).symm
  constructor
  case once => rw [hoffers]; exact h.once
  case claimed => rw [hoffers]; exact h.claimed
  case asking =>
    intro ctx rx files hu
    rw [hoffers]
    exact h.asking (hbusy hu rfl)
  case asked =>
    intro ctx rx hu
    rw [hoffers]
    exact h.asked (hbusy hu rfl)
  case granted => exact fun hu hf => (h.granted (hbusy hu rfl) hf).append new
  case active => exact fun hs hf => (h.active (hquiet.session ▸ hs) hf).append new
  case sending =>
    intro ctx hu
    obtain ⟨hfile, hstart⟩ := h.sending (hbusy hu rfl)
    exact ⟨hfile.append new, hstart⟩
  case uploads =>
    intro sid fid file tx hm
    obtain ⟨hfile, hstart⟩ := h.uploads (hevent hm (by simp))
    exact ⟨hfile.append new, hstart⟩
  case ending =>
    intro t sid reason hu hend
    rcases List.mem_append.mp hu with hu | hu
    · exact h.ending hu hend
    · rw [(envStep_ending he).1 t hu] at hend
      cases hend
  case ended => exact fun hm => h.ended (hevent hm (by simp))
  case aborting =>
    intro sid hu
    rcases List.mem_append.mp hu with hu | hu
    · exact hover (h.aborting hu)
    · cases (envStep_rests he _ hu).1
  case aborted => exact fun hm => hover (h.aborted (hevent hm (by simp)))
  case ordered =>
    rw [List.pairwise_append]
    refine ⟨h.ordered, ?_, ?_⟩
    · refine List.pairwise_of_forall_mem_list fun before hm _ _ sid heq => ?_
      obtain ⟨ip, info, rfl⟩ := hnew before hm
      cases heq
    · intro before _ after hm sid _
      obtain ⟨ip, info, rfl⟩ := hnew after hm
      exact (Option.some_ne_none sid).symm

end EventHistory

end Steps

/-! ## §6  Uploads that are not repeated -/

/-- The upload of a file is announced once. -/
structure UploadsOnce (events : List ServerEventV2) (c : ServerPool) : Prop where
  once : (events.filterMap ServerEventV2.upload?).Nodup
  sending : ∀ {ctx}, Task.upload (.send ctx) ∈ c.tasks →
    (ctx.sessionId, ctx.fileId) ∉ events.filterMap ServerEventV2.upload?

/-- If a task at this point begins an upload, then it is the first one of its file. -/
def firstAttempt (slot : Option SessionStateV2) : Task → Bool
  | .upload (.begin clientInfo sid fid token) =>
      match beginUpload clientInfo.ip sid fid token slot, slot with
      | .ok _, some (.active session) =>
          (session.files.get? fid).all fun file => file.attempts = 0
      | _, _ => true
  | _ => true

section Uploads

variable {X : Externals} {events new : List ServerEventV2} {c : ServerPool} {i : ℕ}
  {t : Task} {a : Act} {o : Step}

theorem mem_uploads {sid fid : String} :
    (sid, fid) ∈ events.filterMap ServerEventV2.upload? ↔
      ∃ file tx, .fileUpload sid fid file tx ∈ events := by
  rw [List.mem_filterMap]
  constructor
  · rintro ⟨event, hm, he⟩
    cases event with
    | fileUpload sid' fid' file tx =>
        cases he
        exact ⟨file, tx, hm⟩
    | _ => cases he
  · rintro ⟨file, tx, hm⟩
    exact ⟨_, hm, rfl⟩

/-- What a step announces is the upload of its own task. -/
theorem Emits.uploads (he : Emits X t o new) :
    new.filterMap ServerEventV2.upload? = [] ∨ ∃ ctx, t = .upload (.send ctx) ∧
      new.filterMap ServerEventV2.upload? = [(ctx.sessionId, ctx.fileId)] := by
  cases he with
  | upload ht => exact .inr ⟨_, ht, rfl⟩
  | _ => exact .inl rfl

theorem UploadsOnce.task (h : UploadsOnce events c) (hh : EventHistory X events c)
    (hs : SendStep X c i t a o new) (hup : uploads.Holds c)
    (hfirst : a = .go → firstAttempt c.shared.session t = true) :
    UploadsOnce (events ++ new) (c.advance i o) where
  once := by
    rw [List.filterMap_append]
    rcases hs.emits.uploads with hnil | ⟨ctx, rfl, hone⟩
    · rw [hnil, List.append_nil]
      exact h.once
    · rw [hone, List.nodup_append]
      refine ⟨h.once, List.nodup_singleton _, ?_⟩
      intro x hx y hy
      obtain rfl := List.mem_singleton.mp hy
      rintro rfl
      exact h.sending hs.mem hx
  sending := by
    intro ctx hu hm
    rw [List.filterMap_append, List.mem_append] at hm
    rcases advance_cases hs.task hu with hu | ⟨j, hne, hj⟩
    · -- the upload was started in this step, for the first time
      obtain ⟨clientInfo, token, st, rfl, rfl, hb, -⟩ := taskStep_send hs.step hu
      obtain ⟨session, file, hsess, hid, -, hf, -⟩ := beginUpload_eq_ok.mp hb
      rcases hm with hold | hnew
      · obtain ⟨file', tx, hold⟩ := mem_uploads.mp hold
        have hcount := (hup.glob.files hsess hf).count
        have hzero := hfirst rfl
        rw [hsess] at hb
        simp only [firstAttempt, hb, hsess, hf, Option.all_some, decide_eq_true_eq] at hzero
        rw [hzero, starts, List.count_eq_zero, hid] at hcount
        exact hcount (hh.uploads hold).2
      · rcases hs.emits.uploads with hnil | ⟨ctx', hsend, -⟩
        · rw [hnil] at hnew
          cases hnew
        · cases hsend
    · rcases hm with hold | hnew
      · exact h.sending (List.mem_of_getElem? hj) hold
      · rcases hs.emits.uploads with hnil | ⟨ctx', rfl, hone⟩
        · rw [hnil] at hnew
          cases hnew
        · -- a file in progress has one owner
          rw [hone, List.mem_singleton] at hnew
          refine hup.pair hne.symm hs.task hj (ctx'.sessionId, ctx'.fileId) rfl ?_
          rw [← hnew]
          rfl

theorem UploadsOnce.env (h : UploadsOnce events c) {e : Env} {s : ServerV2} {ts : List Task}
    (he : envStep c.shared e = some (s, ts))
    (hnew : ∀ event ∈ new, ∃ ip info, event = .register ip info) :
    UploadsOnce (events ++ new) (c.enter s ts) := by
  have hnone : new.filterMap ServerEventV2.upload? = [] := by
    refine List.filterMap_eq_nil_iff.mpr fun event hm => ?_
    obtain ⟨ip, info, rfl⟩ := hnew event hm
    rfl
  constructor
  · rw [List.filterMap_append, hnone, List.append_nil]
    exact h.once
  · intro ctx hu
    rw [List.filterMap_append, hnone, List.append_nil]
    rcases List.mem_append.mp hu with hu | hu
    · exact h.sending hu
    · have hidle := (envStep_quiet he).2 _ hu
      cases hidle

end Uploads

end FireBoxTransfer

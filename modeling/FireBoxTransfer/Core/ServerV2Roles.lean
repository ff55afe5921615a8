import FireBoxTransfer.Core.ServerV2Steps

/-!
# The slot protocol: what a task may still do to the slot

Most awaits of a handler differ only in what happens next to it. For the
slot, a task is described by its *role*: which pending entry or which file
in progress it has yet to settle, and whether a drop guard would do so if
the task were dropped. `Move` lists everything one step may do to the
shared state and to the roles, and `taskStep_move` shows that the steps of
the handlers are such moves. The invariants of the slot are proved from the
moves.
-/

namespace FireBoxTransfer

open TaskPool

/-! ## §1  Roles -/

inductive Role where
  /-- Nothing to settle. -/
  | none
  /-- Waits for the slot with a fresh session identifier. -/
  | claiming (ctx : PrepareCtx)
  /-- Holds the pending entry; the guard is armed. -/
  | holding (ctx : PrepareCtx) (decisionRx : ℕ)
  /-- Accepted, waits to write the active session; the guard is armed. -/
  | accepting (ctx : PrepareCtx) (files : AssocMap String SessionFileV2)
  /-- Waits to clear the pending entry; the guard is disarmed. -/
  | clearing (ctx : PrepareCtx)
  /-- The spawned clean-up of a pending entry. -/
  | clearGuard (sessionId : String)
  /-- `upload` before it validates its request. -/
  | starting (ip : PeerIp) (sessionId fileId token : String)
  /-- Holds a file in progress; the guard is armed. -/
  | uploading (sessionId fileId : String)
  /-- Waits to finalize the file; the guard is disarmed. -/
  | finishing (sessionId fileId : String) (result : SaveResult)
  /-- The spawned clean-up of a file. -/
  | finishGuard (sessionId fileId : String)
  /-- `cancel` before it looks for a pending session. -/
  | cancelling (ip : PeerIp) (sessionId : Option String)
  /-- `cancel` and `cancel_v2_session` before they remove an active session,
  with the address that has to match, if any. -/
  | removing (sessionId : String) (ip : Option PeerIp)
  /-- Answered with the file tokens of a session. -/
  | granted (sessionId : String)

/-- The role of a task that has answered its request. -/
def answeredRole : Except AppError Response → Role
  | .ok ⟨_, .prepared body⟩ => .granted body.sessionId
  | _ => .none

def Task.role : Task → Role
  | .prepareUpload (.claim ctx) => .claiming ctx
  | .prepareUpload (.send ctx rx) | .prepareUpload (.select ctx rx) => .holding ctx rx
  | .prepareUpload (.activate ctx files) => .accepting ctx files
  | .prepareUpload (.clear ctx _) => .clearing ctx
  | .cleanup (.clear sessionId) => .clearGuard sessionId
  | .upload (.begin clientInfo sessionId fileId token) =>
      .starting clientInfo.ip sessionId fileId token
  | .upload (.send ctx) | .upload (.target ctx) | .upload (.save ctx _ _) =>
      .uploading ctx.sessionId ctx.fileId
  | .upload (.finish ctx result) => .finishing ctx.sessionId ctx.fileId result
  | .cleanup (.finalize sessionId fileId) => .finishGuard sessionId fileId
  | .cancel (.pending clientInfo sessionId) => .cancelling clientInfo.ip sessionId
  | .cancel (.active clientInfo sessionId) => .removing sessionId (some clientInfo.ip)
  | .cancelV2Session sessionId => .removing sessionId .none
  | .answered result => answeredRole result
  | _ => .none

theorem answeredRole_cases (result : Except AppError Response) :
    answeredRole result = .none ∨ ∃ sid, answeredRole result = .granted sid := by
  rcases result with err | ⟨status, body⟩
  · exact .inl rfl
  · cases body with
    | prepared body => exact .inr ⟨_, rfl⟩
    | _ => exact .inl rfl

/-- The roles that hold nothing of the slot. -/
def Role.idle : Role → Bool
  | .none | .starting _ _ _ _ | .cancelling _ _ | .removing _ _ => true
  | _ => false

/-- The session identifier a handler waits to claim the slot with. -/
def Role.claims : Role → Option String
  | .claiming ctx => some ctx.sessionId
  | _ => Option.none

/-- The session whose pending entry the task has to settle. -/
def Role.settles : Role → Option String
  | .holding ctx _ | .accepting ctx _ | .clearing ctx => some ctx.sessionId
  | .clearGuard sessionId => some sessionId
  | _ => Option.none

/-- The pending entry as the handler inserted it. -/
def PrepareCtx.pending (ctx : PrepareCtx) : PendingSessionV2 :=
  ⟨ctx.sessionId, ctx.clientInfo.ip, ctx.cancelled⟩

/-- The entry a handler, as opposed to a spawned clean-up, has to settle. -/
def Role.entry : Role → Option PendingSessionV2
  | .holding ctx _ | .accepting ctx _ | .clearing ctx => some ctx.pending
  | _ => Option.none

/-- The file in progress the task has to settle. -/
def Role.file : Role → Option (String × String)
  | .uploading sessionId fileId | .finishing sessionId fileId _
  | .finishGuard sessionId fileId => some (sessionId, fileId)
  | _ => Option.none

theorem Role.claims_of_idle {r : Role} (h : r.idle = true) : r.claims = Option.none := by
  cases r <;> first | rfl | cases h

theorem Role.settles_of_idle {r : Role} (h : r.idle = true) : r.settles = Option.none := by
  cases r <;> first | rfl | cases h

theorem Role.file_of_idle {r : Role} (h : r.idle = true) : r.file = Option.none := by
  cases r <;> first | rfl | cases h

theorem Role.settles_of_entry {r : Role} {p : PendingSessionV2} (h : r.entry = some p) :
    r.settles = some p.sessionId := by
  cases r <;> cases h <;> rfl

/-! ## §2  Moves -/

/-- A step that leaves the slot and the tokens alone. -/
structure Quiet (s s' : ServerV2) : Prop where
  session : s'.session = s.session
  cancelTokens : s'.cancelTokens = s.cancelTokens
  minted : s.minted ≤ s'.minted

theorem Quiet.rfl {s : ServerV2} : Quiet s s := ⟨Eq.refl _, Eq.refl _, Nat.le_refl _⟩

/-- `Move X s r a s' r' rs seen`: a task in role `r` resumed by `a` may take
the shared state from `s` to `s'`, go on in role `r'` and start tasks in the
roles `rs`. -/
inductive Move (X : Externals) (s : ServerV2) : Role → Act → ServerV2 → Role →
    List Role → List Seen → Prop
  | rest {a s' r r'} (hr : r.idle = true) (hr' : r'.idle = true) (hq : Quiet s s') :
      Move X s r a s' r' [] []
  | reserve {a s' ctx} (hid : ctx.sessionId = X.uuid s.minted)
      (htok : ctx.cancelled = s.cancelTokens.length)
      (hs : s'.session = s.session)
      (hts : s'.cancelTokens = s.cancelTokens ++ [false])
      (hm : s'.minted = s.minted + 1) : Move X s .none a s' (.claiming ctx) [] []
  | giveUp {a s' ctx} (hq : Quiet s s') : Move X s (.claiming ctx) a s' .none [] []
  | claim {a s' ctx rx} (hfree : s.session = none)
      (hs : s'.session = some (.pending ctx.pending))
      (hts : s'.cancelTokens = s.cancelTokens) (hm : s'.minted = s.minted) :
      Move X s (.claiming ctx) a s' (.holding ctx rx) [] [.claimed ctx.sessionId]
  | hold {a s' ctx rx} (hq : Quiet s s') :
      Move X s (.holding ctx rx) a s' (.holding ctx rx) [] []
  | refuse {s' ctx rx} (hq : Quiet s s') :
      Move X s (.holding ctx rx) .decision s' (.clearing ctx) [] []
  | accept {s' ctx rx ids files} (hq : Quiet s s')
      (hdec : s.decisions[rx]? = some (.sent (.accept ids)))
      (hfiles : files = acceptedFiles X s.minted ctx.payload.files ids)
      (hne : files.isEmpty = false) :
      Move X s (.holding ctx rx) .decision s' (.accepting ctx files) [] []
  | abandon {a s' r ctx} (hr : (∃ rx, r = .holding ctx rx) ∨ ∃ files, r = .accepting ctx files)
      (hq : Quiet s s') : Move X s r a s' .none [.clearGuard ctx.sessionId] []
  | clear {a s' r sid} (hr : (∃ ctx, r = .clearing ctx ∧ ctx.sessionId = sid) ∨ r = .clearGuard sid)
      (hs : s'.session = clearPendingSession s.session)
      (hts : s'.cancelTokens = s.cancelTokens) (hm : s'.minted = s.minted) :
      Move X s r a s' .none [] []
  | leak {s' ctx} (hq : Quiet s s') : Move X s (.clearing ctx) .drop s' .none [] []
  | activate {a s' ctx files}
      (hs : s'.session = some (.active ⟨ctx.sessionId, ctx.clientInfo.ip, files⟩))
      (hts : s'.cancelTokens = s.cancelTokens) (hm : s'.minted = s.minted) :
      Move X s (.accepting ctx files) a s' (.granted ctx.sessionId) []
        [.activated ctx.sessionId]
  | cancelPending {s' ip sid pending}
      (hp : pendingToCancel ip sid s.session = some pending)
      (hs : s'.session = s.session)
      (hts : s'.cancelTokens = s.cancelTokens.set pending.cancel true)
      (hm : s'.minted = s.minted) :
      Move X s (.cancelling ip sid) .go s' .none [] [.pendingCancelled pending.sessionId]
  | start {a s' ip sid fid token st dto}
      (hb : beginUpload ip sid fid token s.session = .ok (st, dto))
      (hs : s'.session = some st)
      (hts : s'.cancelTokens = s.cancelTokens) (hm : s'.minted = s.minted) :
      Move X s (.starting ip sid fid token) a s' (.uploading sid fid) []
        [.uploadStarted sid fid]
  | upload {a s' sid fid} (hq : Quiet s s') :
      Move X s (.uploading sid fid) a s' (.uploading sid fid) [] []
  | finish {a s' sid fid result} (hq : Quiet s s') :
      Move X s (.uploading sid fid) a s' (.finishing sid fid result) [] []
  | orphan {a s' sid fid} (hq : Quiet s s') :
      Move X s (.uploading sid fid) a s' .none [.finishGuard sid fid] []
  | finalize {a s' r sid fid result}
      (hr : r = .finishing sid fid result ∨ (r = .finishGuard sid fid ∧ result = .failed))
      (hs : s'.session = (finalizeFile sid fid result s.session).1)
      (hts : s'.cancelTokens = s.cancelTokens) (hm : s'.minted = s.minted) :
      Move X s r a s' .none [] []
  | leakFile {s' sid fid result} (hq : Quiet s s') :
      Move X s (.finishing sid fid result) .drop s' .none [] []
  | remove {a s' sid ip session} (hp : s.session = some (.active session))
      (hid : session.sessionId = sid) (hip : ∀ i ∈ ip, session.senderIp = i)
      (hs : s'.session = none) (hts : s'.cancelTokens = s.cancelTokens)
      (hm : s'.minted = s.minted) : Move X s (.removing sid ip) a s' .none [] []

/-- A handler goes on to activate when it finds an accepting decision for at
least one of its files. -/
theorem Move.accepting_from {X : Externals} {s s' : ServerV2} {r r' : Role} {a : Act}
    {rs : List Role} {seen : List Seen} (h : Move X s r a s' r' rs seen) {ctx : PrepareCtx}
    {files : AssocMap String SessionFileV2} (hq : Role.accepting ctx files ∈ r' :: rs) :
    s'.cancelTokens = s.cancelTokens ∧ ∃ rx ids, r = .holding ctx rx ∧ a = .decision ∧
      s.decisions[rx]? = some (.sent (.accept ids)) ∧
      (acceptedFiles X s.minted ctx.payload.files ids).isEmpty = false := by
  cases h with
  | rest _ hr' =>
      rw [List.mem_singleton] at hq
      subst hq
      cases hr'
  | accept hquiet hdec hfiles hne =>
      rw [List.mem_singleton] at hq
      cases hq
      subst hfiles
      exact ⟨hquiet.cancelTokens, _, _, rfl, rfl, hdec, hne⟩
  | _ => simp at hq

/-! ## §3  Every step is a move -/

theorem acceptedFiles_new {X : Externals} {minted : ℕ} {files : AssocMap String FileDto}
    {ids : List String} {fid : String} {file : SessionFileV2}
    (h : (acceptedFiles X minted files ids).get? fid = some file) :
    file.status = .pending ∧ file.attempts = 0 := by
  obtain ⟨i, dto, -, rfl⟩ := AssocMap.get?_mapIdx h
  exact ⟨rfl, rfl⟩

/-- The files with a token are the accepted keys of the request. -/
theorem acceptedFiles_eq_some {X : Externals} {minted : ℕ} {files : AssocMap String FileDto}
    {ids : List String} {fid : String} {file : SessionFileV2}
    (h : (acceptedFiles X minted files ids).get? fid = some file) :
    fid ∈ ids ∧ files.get? fid = some file.dto := by
  obtain ⟨i, dto, hdto, rfl⟩ := AssocMap.get?_mapIdx h
  rw [AssocMap.get?_filter, Option.filter_eq_some_iff] at hdto
  exact ⟨by simpa using hdto.2, hdto.1⟩

theorem exists_acceptedFiles {X : Externals} {minted : ℕ} {files : AssocMap String FileDto}
    {ids : List String} {fid : String} {dto : FileDto} (hid : fid ∈ ids)
    (h : files.get? fid = some dto) :
    ∃ file, (acceptedFiles X minted files ids).get? fid = some file ∧ file.dto = dto := by
  have hf : (files.filter fun id _ => ids.contains id).get? fid = some dto := by
    rw [AssocMap.get?_filter, h]
    simp [hid]
  obtain ⟨i, hi⟩ := AssocMap.exists_get?_mapIdx _ hf
  exact ⟨_, hi, rfl⟩

/-- The move of a step, in terms of its outcome. -/
abbrev StepMove (X : Externals) (s : ServerV2) (r : Role) (a : Act) (o : Step) : Prop :=
  Move X s r a o.shared o.task.role (o.spawned.map Task.role) o.seen

/-- **Every step of a task is a move of the slot protocol.** -/
theorem taskStep_move {X : Externals} {s : ServerV2} {t : Task} {a : Act} {o : Step}
    (h : taskStep X s t a = some o) : StepMove X s t.role a o := by
  have hquiet {s' : ServerV2} (hs : s'.session = s.session)
      (hts : s'.cancelTokens = s.cancelTokens) (hm : s'.minted = s.minted) : Quiet s s' :=
    ⟨hs, hts, Nat.le_of_eq hm.symm⟩
  cases taskStep_cases h with
  -- the slot of a request
  | reserved _ hctx => subst hctx; exact .reserve rfl rfl rfl rfl rfl
  | conflict | dropClaim => exact .giveUp .rfl
  | claimed hslot => exact .claim hslot rfl rfl rfl
  | asked => exact .hold (hquiet rfl rfl rfl)
  | declined => exact .refuse .rfl
  | acceptedNone => exact .refuse ⟨rfl, rfl, Nat.le_add_right _ _⟩
  | accepted hd hsome => exact .accept ⟨rfl, rfl, Nat.le_add_right _ _⟩ hd rfl hsome
  | askLost | undecided | withdrawn | dropSend | dropSelect => exact .abandon (.inl ⟨_, rfl⟩) .rfl
  | dropActivate => exact .abandon (.inr ⟨_, rfl⟩) .rfl
  | @cleared ctx rejected =>
      cases rejected <;> exact .clear (.inl ⟨ctx, rfl, rfl⟩) rfl rfl rfl
  | guardCleared => exact .clear (.inr rfl) rfl rfl rfl
  | dropClear => exact .leak .rfl
  | activated => exact .activate rfl rfl rfl
  -- a file in progress
  | begun hb => exact .start hb rfl rfl rfl
  | offered => exact .upload (hquiet rfl rfl rfl)
  | targeted => exact .upload .rfl
  | offerLost | notTargeted | saved => exact .finish .rfl
  | dropOffer | dropTarget | dropSave => exact .orphan .rfl
  | @finished ctx result | @finishedLast ctx result =>
      cases result <;> exact .finalize (.inl rfl) rfl rfl rfl
  | guardFinished | guardFinishedLast => exact .finalize (.inr ⟨rfl, rfl⟩) rfl rfl rfl
  | dropFinish => exact .leakFile .rfl
  -- the removal of a session
  | cancelledPending hp => exact .cancelPending hp rfl rfl rfl
  | cancelledActive hc =>
      obtain ⟨hnone, session, hp, hid, hip⟩ := cancelActive_eq_true hc
      exact .remove hp hid (by simpa using hip) hnone rfl rfl
  | notActive hc => exact .rest rfl rfl (hquiet (cancelActive_eq_false hc) rfl rfl)
  | @removed sid =>
      cases hc : (cancelV2Session sid s.session).2 with
      | true =>
          obtain ⟨hnone, session, hp, hid⟩ := cancelV2Session_eq_true hc
          exact .remove hp hid (by simp) hnone rfl rfl
      | false => exact .rest rfl rfl (hquiet (cancelV2Session_eq_false hc) rfl rfl)
  | @endLost _ result | @endSent _ result =>
      cases result <;> exact .rest rfl rfl (hquiet rfl rfl rfl)
  | @dropCancel pc => cases pc <;> exact .rest rfl rfl .rfl
  | _ => exact .rest rfl rfl (hquiet rfl rfl rfl)

/-- The environment leaves the slot and the tokens alone, and the tasks it
starts have nothing to settle. -/
theorem envStep_quiet {s s' : ServerV2} {e : Env} {ts : List Task}
    (h : envStep s e = some (s', ts)) : Quiet s s' ∧ ∀ t ∈ ts, t.role.idle = true := by
  cases envStep_cases h with
  | prepareUpload | upload | cancel | cancelV2Session =>
      exact ⟨.rfl, by simp [Task.role, Role.idle]⟩
  | _ => exact ⟨⟨rfl, rfl, Nat.le_refl _⟩, by simp⟩

end FireBoxTransfer

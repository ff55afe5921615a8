import FireBoxTransfer.Core.ServerV2Ownership

/-!
# Cancelling a pending request

`cancel` answers 200 once it has cancelled the token of the pending session.
The handler looks at the token in its `select!` only. Between the branch it
takes there and the write of the active session it waits for the lock, with
the pending entry still in the slot: a cancel that arrives then is
acknowledged and has no effect. The same happens when decision and token are
both ready and `select!` takes the decision.
-/

namespace FireBoxTransfer

open TaskPool Runs

/-! ## §1  The property -/

/-- **Cancels are effective**: a session whose pending request was cancelled
is not active, and its sender is not answered with file tokens. The log only
grows, so along a run this says it of every later state. -/
structure CancelEffective (p : ServerPool) : Prop where
  never_active : ∀ sid, .pendingCancelled sid ∈ p.log →
    ∀ session, p.shared.session = some (.active session) → session.sessionId ≠ sid
  never_granted : ∀ sid, .pendingCancelled sid ∈ p.log →
    ∀ t ∈ p.tasks, ∀ status body, t = .answered (.ok ⟨status, .prepared body⟩) →
      body.sessionId ≠ sid

/-- The session whose token the task cancels when it is resumed. -/
def Task.cancels (s : ServerV2) : Task → Option String
  | .cancel (.pending clientInfo sessionId) =>
      (pendingToCancel clientInfo.ip sessionId s.session).map PendingSessionV2.sessionId
  | _ => none

/-- The session a handler has accepted and is about to write. -/
def Task.activates : Task → Option String
  | .prepareUpload (.activate ctx _) => some ctx.sessionId
  | _ => none

/-- A handler whose token is cancelled, with an accepting decision ready that
leaves files to transfer. -/
def Task.racesCancel (s : ServerV2) : Task → Bool
  | .prepareUpload (.select ctx rx) =>
      (s.cancelTokens[ctx.cancelled]? == some true) &&
        match s.decisions[rx]? with
        | some (.sent (.accept ids)) => ctx.payload.files.keys.any ids.contains
        | _ => false
  | _ => false

/-- The step is not a cancel of a pending session whose handler waits to
write the active session, nor a `select!` that takes an accepting decision
although the token is cancelled. -/
def CancelsInTime (p : ServerPool) : ServerLabel → Prop
  | .task i .go => ∀ t ∈ p.tasks[i]?, ∀ sid ∈ t.cancels p.shared,
      ∀ u ∈ p.tasks, u.activates ≠ some sid
  | .task i .decision => ∀ t ∈ p.tasks[i]?, t.racesCancel p.shared = false
  | _ => True

instance (p : ServerPool) : ∀ l, Decidable (CancelsInTime p l)
  | .task i .go => inferInstanceAs (Decidable (∀ t ∈ p.tasks[i]?,
      ∀ sid ∈ t.cancels p.shared, ∀ u ∈ p.tasks, u.activates ≠ some sid))
  | .task i .decision =>
      inferInstanceAs (Decidable (∀ t ∈ p.tasks[i]?, t.racesCancel p.shared = false))
  | .task _ (.body _) | .task _ .cancelled | .task _ (.saved _) | .task _ .drop
  | .env _ => .isTrue trivial

theorem cancels_of_role {t : Task} {s : ServerV2} {ip : PeerIp} {sid : Option String}
    (h : t.role = .cancelling ip sid) :
    t.cancels s = (pendingToCancel ip sid s.session).map PendingSessionV2.sessionId := by
  cases t with
  | cancel pc => cases pc <;> simp_all [Task.role, Task.cancels]
  | prepareUpload pc => cases pc <;> simp [Task.role] at h
  | upload pc => cases pc <;> simp [Task.role] at h
  | cleanup pc => cases pc <;> simp [Task.role] at h
  | answered result =>
      rcases answeredRole_cases result with hr | ⟨_, hr⟩ <;> simp [Task.role, hr] at h
  | _ => simp [Task.role] at h

theorem activates_of_role {t : Task} {ctx : PrepareCtx}
    {files : AssocMap String SessionFileV2} (h : t.role = .accepting ctx files) :
    t.activates = some ctx.sessionId := by
  cases t with
  | prepareUpload pc => cases pc <;> simp_all [Task.role, Task.activates]
  | cancel pc => cases pc <;> simp [Task.role] at h
  | upload pc => cases pc <;> simp [Task.role] at h
  | cleanup pc => cases pc <;> simp [Task.role] at h
  | answered result =>
      rcases answeredRole_cases result with hr | ⟨_, hr⟩ <;> simp [Task.role, hr] at h
  | _ => simp [Task.role] at h

/-- A handler that takes a decision is at its `select!`. -/
theorem select_of_decision {X : Externals} {s : ServerV2} {t : Task} {ctx : PrepareCtx}
    {rx : ℕ} {o : Step} (h : t.role = .holding ctx rx)
    (ho : taskStep X s t .decision = some o) : t = .prepareUpload (.select ctx rx) := by
  cases t with
  | prepareUpload pc =>
      cases pc <;> simp_all [Task.role, taskStep, prepareUploadStep]
  | cancel pc => cases pc <;> simp [Task.role] at h
  | upload pc => cases pc <;> simp [Task.role] at h
  | cleanup pc => cases pc <;> simp [Task.role] at h
  | answered result =>
      rcases answeredRole_cases result with hr | ⟨_, hr⟩ <;> simp [Task.role, hr] at h
  | _ => simp [Task.role] at h

theorem acceptedFiles_isEmpty {X : Externals} {minted : ℕ}
    {files : AssocMap String FileDto} {ids : List String}
    (h : (acceptedFiles X minted files ids).isEmpty = false) :
    files.keys.any ids.contains = true := by
  rw [List.any_eq_true]
  by_contra hno
  push Not at hno
  have hnil : files.entries.filter (fun e => ids.contains e.1) = [] := by
    rw [List.filter_eq_nil_iff]
    intro e he
    exact hno e.1 (List.mem_map_of_mem (f := Prod.fst) he)
  simp only [acceptedFiles, AssocMap.isEmpty, AssocMap.mapIdx, AssocMap.filter, hnil] at h
  cases h

/-! ## §2  What one move does to the tokens -/

section Moves

variable {X : Externals} {s s' : ServerV2} {r r' : Role} {a : Act} {rs : List Role}
  {seen : List Seen} {tok : ℕ}

/-- The tokens stay as they are, a fresh one is added, or the one of the
pending entry is cancelled. -/
theorem Move.cancelTokens (h : Move X s r a s' r' rs seen) :
    s'.cancelTokens = s.cancelTokens ∨ s'.cancelTokens = s.cancelTokens ++ [false] ∨
      ∃ ip sid pending, r = .cancelling ip sid ∧ a = .go ∧
        pendingToCancel ip sid s.session = some pending ∧
        s'.cancelTokens = s.cancelTokens.set pending.cancel true := by
  cases h with
  | rest _ _ hq | abandon _ hq => exact .inl hq.cancelTokens
  | accept hq => exact .inl hq.cancelTokens
  | reserve _ _ _ hts => exact .inr (.inl hts)
  | cancelPending hp _ hts => exact .inr (.inr ⟨_, _, _, rfl, rfl, hp, hts⟩)
  | claim _ _ hts | clear _ _ hts | start _ _ hts | finalize _ _ hts => exact .inl hts
  | activate _ hts => exact .inl hts
  | remove _ _ _ _ hts => exact .inl hts
  | _ hq => exact .inl hq.cancelTokens

theorem Move.length_cancelTokens_le (h : Move X s r a s' r' rs seen) :
    s.cancelTokens.length ≤ s'.cancelTokens.length := by
  rcases h.cancelTokens with heq | heq | ⟨_, _, _, -, -, -, heq⟩ <;> rw [heq] <;> simp

/-- A cancelled token stays cancelled. -/
theorem Move.token_kept (h : Move X s r a s' r' rs seen)
    (htok : s.cancelTokens[tok]? = some true) : s'.cancelTokens[tok]? = some true := by
  have hlen : tok < s.cancelTokens.length := (List.getElem?_eq_some_iff.mp htok).1
  rcases h.cancelTokens with heq | heq | ⟨_, _, p, -, -, -, heq⟩ <;> rw [heq]
  · exact htok
  · rwa [List.getElem?_append_left hlen]
  · by_cases hp : p.cancel = tok
    · subst hp
      rw [List.getElem?_set_self hlen]
    · rwa [List.getElem?_set_ne hp]

/-- A token becomes cancelled only by a cancel of the pending entry that
carries it. -/
theorem Move.token_new (h : Move X s r a s' r' rs seen)
    (htok : s'.cancelTokens[tok]? = some true) :
    s.cancelTokens[tok]? = some true ∨ ∃ ip sid pending, r = .cancelling ip sid ∧
      a = .go ∧ pendingToCancel ip sid s.session = some pending := by
  rcases h.cancelTokens with heq | heq | ⟨ip, sid, p, hr, ha, hp, heq⟩
  · exact .inl (heq ▸ htok)
  · rw [heq, List.getElem?_append] at htok
    split_ifs at htok with hlt
    · exact .inl htok
    · -- the fresh token is not cancelled
      rcases hk : tok - s.cancelTokens.length with - | k <;> simp [hk] at htok
  · exact .inr ⟨ip, sid, p, hr, ha, hp⟩

/-- A cancel is noted when it cancels the token of the entry in the slot. -/
theorem Move.pendingCancelled_mem (h : Move X s r a s' r' rs seen) {sid : String}
    (hm : .pendingCancelled sid ∈ seen) :
    ∃ p, s.session = some (.pending p) ∧ p.sessionId = sid ∧ s'.session = s.session ∧
      seen = [.pendingCancelled sid] ∧
      s'.cancelTokens = s.cancelTokens.set p.cancel true := by
  cases h <;> simp at hm
  case cancelPending ip id p hp hs hts hmint =>
    subst hm
    exact ⟨p, (pendingToCancel_eq_some hp).1, rfl, hs, rfl, hts⟩

theorem Move.granted_new (h : Move X s r a s' r' rs seen) {q : Role} (hq : q ∈ r' :: rs)
    {sid : String} (hg : q = .granted sid) : .activated sid ∈ seen := by
  subst hg
  cases h with
  | rest _ hr' =>
      rw [List.mem_singleton] at hq
      subst hq
      cases hr'
  | activate =>
      obtain rfl := Role.granted.inj (List.mem_singleton.mp hq)
      exact List.mem_singleton_self _
  | _ => simp at hq

theorem Move.claiming_new (h : Move X s r a s' r' rs seen) {q : Role} (hq : q ∈ r' :: rs)
    {ctx : PrepareCtx} (hc : q = .claiming ctx) :
    ctx.cancelled < s'.cancelTokens.length := by
  subst hc
  cases h with
  | rest _ hr' =>
      rw [List.mem_singleton] at hq
      subst hq
      cases hr'
  | reserve _ htok _ hts =>
      obtain rfl : ctx = _ := by simpa using hq
      rw [hts, htok]
      simp
  | _ => simp at hq

end Moves

/-! ## §3  The invariant -/

/-- The shared part: a cancel noted for a session means that its token is
cancelled as long as it is pending, and that it was never activated. -/
structure CancelGlob (log : List Seen) (s : ServerV2) : Prop where
  claimed : ∀ {sid}, .pendingCancelled sid ∈ log → .claimed sid ∈ log
  bound : ∀ {p}, s.session = some (.pending p) → p.cancel < s.cancelTokens.length
  cancelled : ∀ {p}, s.session = some (.pending p) → .pendingCancelled p.sessionId ∈ log →
    s.cancelTokens[p.cancel]? = some true
  exclusive : ∀ {sid}, .pendingCancelled sid ∈ log → .activated sid ∉ log

/-- The part of one task: an accepted request is not cancelled. -/
structure CancelLoc (log : List Seen) (s : ServerV2) (r : Role) : Prop where
  bound : ∀ {ctx}, r = .claiming ctx → ctx.cancelled < s.cancelTokens.length
  accepting : ∀ {ctx files}, r = .accepting ctx files →
    s.cancelTokens[ctx.cancelled]? ≠ some true
  granted : ∀ {sid}, r = .granted sid → .activated sid ∈ log

def cancelling : Assertion ServerV2 Task Seen where
  glob := CancelGlob
  loc log s t := CancelLoc log s t.role
  pair _ _ := True

section Stable

variable {X : Externals} {log : List Seen} {s s' : ServerV2} {r r' q : Role} {a : Act}
  {rs : List Role} {seen : List Seen}

theorem Move.cancelGlob (h : Move X s r a s' r' rs seen) (hog : OwnershipGlob X log s)
    (hol : OwnershipLoc X log s r) (hg : CancelGlob log s) (hl : CancelLoc log s r) :
    CancelGlob (log ++ seen) s' where
  claimed := by
    intro sid hm
    refine List.mem_append_left _ ?_
    rcases List.mem_append.mp hm with hm | hm
    · exact hg.claimed hm
    · obtain ⟨p, hp, rfl, -⟩ := h.pendingCancelled_mem hm
      exact (hog.pending hp).1
  bound := by
    intro p hp
    rcases h.pending_new hp with hp' | hm
    · exact Nat.lt_of_lt_of_le (hg.bound hp') h.length_cancelTokens_le
    · cases h <;> simp at hm
      case claim ctx rx hfree hs hts hmint =>
        rw [hs] at hp
        obtain rfl := SessionStateV2.pending.inj (Option.some.inj hp)
        rw [hts]
        exact hl.bound rfl
  cancelled := by
    intro p hp hm
    rcases h.pending_new hp with hp' | hcl
    · rcases List.mem_append.mp hm with hm | hm
      · exact h.token_kept (hg.cancelled hp' hm)
      · obtain ⟨p', hp'', -, -, -, hts⟩ := h.pendingCancelled_mem hm
        obtain rfl : p = p' := by simpa [hp'] using hp''
        rw [hts, List.getElem?_set_self (hg.bound hp')]
    · -- a session that is claimed only now has not been cancelled before
      obtain ⟨hcl', -, -, hseen⟩ := h.claimed_mem hcl
      rcases List.mem_append.mp hm with hm | hm
      · exact absurd (hg.claimed hm) (hol.fresh hcl')
      · simp [hseen] at hm
  exclusive := by
    intro sid hm hact
    rcases List.mem_append.mp hact with hact | hact
    · rcases List.mem_append.mp hm with hm | hm
      · exact hg.exclusive hm hact
      · obtain ⟨p, hp, rfl, -⟩ := h.pendingCancelled_mem hm
        exact (hog.pending hp).2 hact
    · have hseen := (h.activated_mem hact).2.1
      have hmlog : .pendingCancelled sid ∈ log := by simpa [hseen] using hm
      cases h <;> simp at hact
      case activate ctx files hs hts hmint =>
        subst hact
        exact hl.accepting rfl (hg.cancelled (hol.entry rfl) hmlog)

theorem Move.cancelLoc (h : Move X s r a s' r' rs seen)
    (hrace : a = .decision → ∀ ctx rx ids, r = .holding ctx rx →
      s.decisions[rx]? = some (.sent (.accept ids)) →
      ctx.payload.files.keys.any ids.contains = true →
      s.cancelTokens[ctx.cancelled]? ≠ some true)
    (hq : q ∈ r' :: rs) : CancelLoc (log ++ seen) s' q where
  bound := fun hc => h.claiming_new hq hc
  accepting := by
    rintro ctx files rfl
    obtain ⟨hts, rx, ids, hr, ha, hdec, hne⟩ := h.accepting_from hq
    rw [hts]
    exact hrace ha ctx rx ids hr hdec (acceptedFiles_isEmpty hne)
  granted := fun hg => List.mem_append_right _ (h.granted_new hq hg)

theorem Move.cancelFrame (h : Move X s r a s' r' rs seen)
    (hlate : ∀ ip sid pending, r = .cancelling ip sid → a = .go →
      pendingToCancel ip sid s.session = some pending →
      ∀ ctx files, q = .accepting ctx files → ctx.sessionId ≠ pending.sessionId)
    (hoq : OwnershipLoc X log s q) (hq : CancelLoc log s q) :
    CancelLoc (log ++ seen) s' q where
  bound := fun hc => Nat.lt_of_lt_of_le (hq.bound hc) h.length_cancelTokens_le
  accepting := by
    rintro ctx files rfl htok
    rcases h.token_new htok with htok | ⟨ip, sid, p, hr, ha, hp⟩
    · exact hq.accepting rfl htok
    · -- the slot holds the entry of the accepted request
      have hslot := (pendingToCancel_eq_some hp).1
      rw [hoq.entry rfl] at hslot
      obtain rfl := SessionStateV2.pending.inj (Option.some.inj hslot)
      exact hlate ip sid _ hr ha hp ctx files rfl rfl
  granted := fun hg => List.mem_append_left _ (hq.granted hg)

end Stable

theorem cancelling_stable (X : Externals) :
    cancelling.Stable (serverMachine X)
      (fun p l => CancelsInTime p l ∧ (ownership X).Holds p) where
  symm := id
  own := by
    rintro p i a t o hp ⟨hok, hown⟩ ht ho
    have hm := taskStep_move ho
    refine ⟨hm.cancelGlob hown.glob (hown.loc ht) hp.glob (hp.loc ht), fun u hu =>
      hm.cancelLoc ?_ (mem_roles hu)⟩
    rintro rfl ctx rx ids hr hdec hids htok
    have hsel := select_of_decision hr ho
    have hno : t.racesCancel p.shared = false := hok t ht
    rw [hsel] at hno
    simp [Task.racesCancel, htok, hdec] at hno
    obtain ⟨id, hid, hin⟩ := List.any_eq_true.mp hids
    exact hno id hid (by simpa using hin)
  frame := by
    rintro p i j a t u o hp ⟨hok, hown⟩ ht ho - hu
    refine (taskStep_move ho).cancelFrame ?_ (hown.loc hu) (hp.loc hu)
    rintro ip sid pending hr rfl hpend ctx files hq heq
    have hcan : pending.sessionId ∈ t.cancels p.shared := by
      rw [cancels_of_role hr, hpend]
      exact rfl
    refine hok t ht _ hcan u (List.mem_of_getElem? hu) ?_
    rw [activates_of_role hq, heq]
  apart := fun _ _ _ _ _ _ _ _ => trivial
  fork := fun _ _ _ _ => List.pairwise_of_forall (fun _ _ => trivial)
  env := by
    rintro p e s ts hp - he
    obtain ⟨hq, hidle⟩ := envStep_quiet he
    refine ⟨⟨hp.glob.claimed, ?_, ?_, hp.glob.exclusive⟩, ?_, ?_, fun _ _ _ => trivial,
      List.pairwise_of_forall fun _ _ => trivial⟩
    · intro p' hp'
      rw [hq.cancelTokens]
      exact hp.glob.bound (hq.session ▸ hp')
    · intro p' hp' hm
      rw [hq.cancelTokens]
      exact hp.glob.cancelled (hq.session ▸ hp') hm
    · intro i u hu
      have hl := hp.loc hu
      refine ⟨?_, ?_, hl.granted⟩ <;> rw [hq.cancelTokens]
      · exact hl.bound
      · exact hl.accepting
    · intro u hu
      have hr := hidle u hu
      refine ⟨?_, ?_, ?_⟩ <;> intros <;> rename_i heq <;> rw [heq] at hr <;> cases hr

/-! ## §4  Cancels are effective unless they come late -/

/-- **Cancels are effective** in every run in which no cancel comes late. -/
theorem cancel_effective {X : Externals} {pin : Option String} {verify : Bool} {cap : ℕ}
    {p : ServerPool}
    (hrun : Run (serverStep X) CancelsInTime (.init pin verify cap) p) :
    CancelEffective p := by
  have hown := ownership_reach hrun.reach
  have hp : cancelling.Holds p := by
    refine (cancelling_stable X).run (Assertion.holds_nil ?_)
      (hrun.strengthen fun q hq => ownership_reach hq.reach)
    constructor <;> simp [ServerV2.start]
  constructor
  · rintro sid hm session hs rfl
    exact hp.glob.exclusive hm (hown.glob.active hs)
  · rintro sid hm t ht status body rfl rfl
    obtain ⟨i, hi⟩ := List.mem_iff_getElem?.mp ht
    exact hp.glob.exclusive hm ((hp.loc hi).granted rfl)

/-- The sender's session-less cancel, as task `i`, until it is answered. -/
def Sample.cancel (i : ℕ) : List ServerLabel :=
  [.env (.cancel Sample.sender []), .task i .go, .task i .go]

/-- A cancel while the application is still deciding. -/
theorem cancel_effective_while_deciding : ∃ p,
    Run (serverStep .unary) CancelsInTime Sample.init p ∧
      .pendingCancelled "" ∈ p.log ∧ CancelEffective p := by
  obtain ⟨p, hp, hcheck⟩ := exists_of_exec_any (serverStep .unary) Sample.init
    (Sample.prepare 0 ++ Sample.cancel 1 ++
      [.env .recv, .env (.decide 0 (.accept ["file1"])), .task 0 .cancelled, .task 2 .go])
    (fun p => decide (.pendingCancelled "" ∈ p.log)) rfl
  have hrun : Run (serverStep .unary) CancelsInTime Sample.init p :=
    run_of_exec hp (by decide)
  exact ⟨p, hrun, of_decide_eq_true hcheck, cancel_effective hrun⟩

/-! ## §5  A late cancel -/

/-- The request is accepted, and the cancel arrives while the handler waits
for the lock to write the active session. -/
def acceptedThenCancelled : List ServerLabel :=
  Sample.prepare 0 ++ [.env .recv, .env (.decide 0 (.accept ["file1"])),
    .task 0 .decision] ++ Sample.cancel 1 ++ [.task 0 .go]

/-- The cancel is answered 200, and the session it cancelled is active, its
sender answered with file tokens. -/
theorem acceptedThenCancelled_active : ∃ p, Reach (serverStep .unary) Sample.init p ∧
    p.log = [.claimed "", .pendingCancelled "", .activated ""] ∧
    ∃ session, p.shared.session = some (.active session) ∧ session.sessionId = "" := by
  obtain ⟨p, hp, hcheck⟩ := exists_of_exec_any (serverStep .unary) Sample.init
    acceptedThenCancelled
    (fun p => decide (p.log = [.claimed "", .pendingCancelled "", .activated ""]) &&
      decide (p.shared.session = some (.active ⟨"", Sample.sender.ip,
        .ofList [("file1", ⟨Sample.file "file1", "u", .pending, 0⟩)]⟩))) rfl
  rw [Bool.and_eq_true, decide_eq_true_eq, decide_eq_true_eq] at hcheck
  exact ⟨p, reach_of_exec hp, hcheck.1, _, hcheck.2, rfl⟩

/-- A late cancel is acknowledged and has no effect. -/
theorem cancel_effective_fails :
    ¬ ∀ (X : Externals) (pin : Option String) (verify : Bool) (cap : ℕ) (p : ServerPool),
      Reach (serverStep X) (.init pin verify cap) p → CancelEffective p := by
  intro h
  obtain ⟨p, hp, hlog, session, hs, hid⟩ := acceptedThenCancelled_active
  refine (h .unary none true 16 p hp).never_active "" ?_ session hs hid
  simp [hlog]

end FireBoxTransfer

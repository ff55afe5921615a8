import FireBoxTransfer.Core.ServerV2Roles

/-!
# Who may touch the slot

The pending entry of the slot belongs to exactly one task, the handler that
inserted it or the clean-up of its guard. `clear_pending_session` compares no
identifiers; that it never hits a foreign entry is the invariant proved here,
over every interleaving.
-/

namespace FireBoxTransfer

open TaskPool Runs

/-! ## §1  What one move does -/

section Moves

variable {X : Externals} {s s' : ServerV2} {r r' : Role} {a : Act} {rs : List Role}
  {seen : List Seen}

theorem Move.minted_le (h : Move X s r a s' r' rs seen) : s.minted ≤ s'.minted := by
  cases h <;> first | exact Quiet.minted ‹_› | omega

/-- A pending entry survives every move of a task that does not have to
settle it. -/
theorem Move.session_of_pending (h : Move X s r a s' r' rs seen)
    {p : PendingSessionV2} (hp : s.session = some (.pending p))
    (hr : r.settles = none) : s'.session = s.session := by
  cases h with
  | claim hfree => rw [hfree] at hp; cases hp
  | rest _ _ hq | abandon _ hq => exact hq.session
  | accept hq => exact hq.session
  | clear hr' =>
      rcases hr' with ⟨ctx, rfl, -⟩ | rfl <;> simp [Role.settles] at hr
  | activate => simp [Role.settles] at hr
  | start hb =>
      rw [hp] at hb
      simp [beginUpload] at hb
  | finalize _ hs => rw [hs, hp]; rfl
  | remove ha => rw [ha] at hp; cases hp
  | reserve _ _ hs | cancelPending _ hs => exact hs
  | _ hq => exact hq.session

/-- Only a claiming task notes a claim, of the identifier it carries; it found
the slot free and has to settle the entry from then on. -/
theorem Move.claimed_mem (h : Move X s r a s' r' rs seen) {sid : String}
    (hm : .claimed sid ∈ seen) :
    r.claims = some sid ∧ s.session = none ∧ r'.settles = some sid ∧
      seen = [.claimed sid] := by
  cases h <;> simp at hm
  case claim ctx rx hfree hs hts hmint =>
    subst hm
    exact ⟨rfl, hfree, rfl, rfl⟩

/-- Only the handler that holds the pending entry notes an activation. -/
theorem Move.activated_mem (h : Move X s r a s' r' rs seen) {sid : String}
    (hm : .activated sid ∈ seen) :
    r.settles = some sid ∧ seen = [.activated sid] ∧
      ∃ session, s'.session = some (.active session) ∧ session.sessionId = sid := by
  cases h <;> simp at hm
  case activate ctx files hs hts hmint =>
    subst hm
    exact ⟨rfl, rfl, _, hs, rfl⟩

/-- A task that starts to claim does so with the identifier just drawn. -/
theorem Move.claims_new (h : Move X s r a s' r' rs seen) {q : Role}
    (hq : q ∈ r' :: rs) {sid : String} (hc : q.claims = some sid) :
    sid = X.uuid s.minted ∧ s'.minted = s.minted + 1 ∧ seen = [] := by
  cases h with
  | rest _ hr' =>
      rw [List.mem_singleton] at hq
      subst hq
      rw [Role.claims_of_idle hr'] at hc
      cases hc
  | reserve hid _ _ _ hm =>
      rw [List.mem_singleton] at hq
      subst hq
      obtain rfl := Option.some.inj hc
      exact ⟨hid, hm, rfl⟩
  | abandon | orphan =>
      simp only [List.mem_cons, List.not_mem_nil, or_false] at hq
      rcases hq with rfl | rfl <;> cases hc
  | _ =>
      rw [List.mem_singleton] at hq
      subst hq
      cases hc

/-- The duty to settle a pending entry is handed on, with the slot
unchanged, or arises with the claim of a free slot. -/
theorem Move.settles_new (h : Move X s r a s' r' rs seen) {q : Role}
    (hq : q ∈ r' :: rs) {sid : String} (hc : q.settles = some sid) :
    (r.settles = some sid ∧ s'.session = s.session ∧
        ∀ p, q.entry = some p → r.entry = some p) ∨
      (s.session = none ∧ ∃ p, s'.session = some (.pending p) ∧ p.sessionId = sid ∧
        ∀ p', q.entry = some p' → p' = p) := by
  cases h with
  | rest _ hr' =>
      rw [List.mem_singleton] at hq
      subst hq
      rw [Role.settles_of_idle hr'] at hc
      cases hc
  | claim hfree hs =>
      rw [List.mem_singleton] at hq
      subst hq
      obtain rfl := Option.some.inj hc
      exact .inr ⟨hfree, _, hs, rfl, fun p' hp' => (Option.some.inj hp').symm⟩
  | hold hquiet | refuse hquiet | accept hquiet _ _ _ =>
      rw [List.mem_singleton] at hq
      subst hq
      exact .inl ⟨hc, hquiet.session, fun _ hp => hp⟩
  | abandon hr hquiet =>
      simp only [List.mem_cons, List.not_mem_nil, or_false] at hq
      rcases hq with rfl | rfl
      · cases hc
      · obtain rfl := Option.some.inj hc
        refine .inl ⟨?_, hquiet.session, fun _ hp => by cases hp⟩
        rcases hr with ⟨_, rfl⟩ | ⟨_, rfl⟩ <;> rfl
  | orphan =>
      simp only [List.mem_cons, List.not_mem_nil, or_false] at hq
      rcases hq with rfl | rfl <;> cases hc
  | _ =>
      rw [List.mem_singleton] at hq
      subst hq
      cases hc

/-- What an accepted request is about to write: at least one file, and all of
them untouched. -/
def FreshFiles (files : AssocMap String SessionFileV2) : Prop :=
  files.isEmpty = false ∧ ∀ fid file, files.get? fid = some file →
    file.status = .pending ∧ file.attempts = 0

theorem Move.accepting_new (h : Move X s r a s' r' rs seen) {ctx : PrepareCtx}
    {files : AssocMap String SessionFileV2} (hq : Role.accepting ctx files ∈ r' :: rs) :
    FreshFiles files := by
  cases h with
  | rest _ hr' =>
      rw [List.mem_singleton] at hq
      subst hq
      cases hr'
  | accept _ _ hfiles hne =>
      rw [List.mem_singleton] at hq
      cases hq
      refine ⟨hne, fun fid file hf => ?_⟩
      rw [hfiles] at hf
      exact acceptedFiles_new hf
  | _ => simp at hq

/-- A step starts at most one task, and then it has nothing left to do. -/
theorem Move.spawned (h : Move X s r a s' r' rs seen) :
    rs = [] ∨ (r' = .none ∧ ∃ q, rs = [q]) := by
  cases h with
  | abandon | orphan => exact .inr ⟨rfl, _, rfl⟩
  | _ => exact .inl rfl

/-- Where an active session of the slot comes from. -/
theorem Move.active_new (h : Move X s r a s' r' rs seen) {session' : UploadSessionV2}
    (hs' : s'.session = some (.active session')) :
    (∃ session, s.session = some (.active session) ∧
        session.sessionId = session'.sessionId) ∨
      .activated session'.sessionId ∈ seen := by
  have hsame : s'.session = s.session → ∃ session, s.session = some (.active session) ∧
      session.sessionId = session'.sessionId :=
    fun heq => ⟨session', heq ▸ hs', rfl⟩
  cases h with
  | claim _ hs => rw [hs] at hs'; cases hs'
  | rest _ _ hq | abandon _ hq => exact .inl (hsame hq.session)
  | accept hq => exact .inl (hsame hq.session)
  | clear _ hs =>
      rw [hs] at hs'
      exact .inl ⟨session', clearPendingSession_eq_active.mp hs', rfl⟩
  | activate hs =>
      rw [hs] at hs'
      obtain rfl := SessionStateV2.active.inj (Option.some.inj hs')
      exact .inr (List.mem_singleton_self _)
  | start hb hs =>
      obtain ⟨session, file, hsess, -, -, -, -, -, -, rfl⟩ := beginUpload_eq_ok.mp hb
      rw [hs] at hs'
      obtain rfl := SessionStateV2.active.inj (Option.some.inj hs')
      exact .inl ⟨session, hsess, rfl⟩
  | finalize _ hs =>
      rw [hs] at hs'
      obtain ⟨session, hsess, ⟨-, rfl⟩ | ⟨-, -, rfl⟩⟩ := finalizeFile_eq_active hs' <;>
        exact .inl ⟨_, hsess, rfl⟩
  | remove _ _ _ hs => rw [hs] at hs'; cases hs'
  | reserve _ _ hs | cancelPending _ hs => exact .inl (hsame hs)
  | _ hq => exact .inl (hsame hq.session)

/-- Where a pending entry of the slot comes from. -/
theorem Move.pending_new (h : Move X s r a s' r' rs seen) {p : PendingSessionV2}
    (hs' : s'.session = some (.pending p)) :
    s.session = some (.pending p) ∨ .claimed p.sessionId ∈ seen := by
  cases h with
  | claim _ hs =>
      rw [hs] at hs'
      obtain rfl := SessionStateV2.pending.inj (Option.some.inj hs')
      exact .inr (List.mem_singleton_self _)
  | rest _ _ hq | abandon _ hq => exact .inl (hq.session ▸ hs')
  | accept hq => exact .inl (hq.session ▸ hs')
  | clear _ hs => exact absurd (hs ▸ hs') clearPendingSession_ne_pending
  | activate hs => rw [hs] at hs'; cases hs'
  | start hb hs =>
      obtain ⟨session, file, -, -, -, -, -, -, -, rfl⟩ := beginUpload_eq_ok.mp hb
      rw [hs] at hs'
      cases hs'
  | finalize _ hs => exact .inl (finalizeFile_eq_pending (hs ▸ hs'))
  | remove _ _ _ hs => rw [hs] at hs'; cases hs'
  | reserve _ _ hs | cancelPending _ hs => exact .inl (hs ▸ hs')
  | _ hq => exact .inl (hq.session ▸ hs')

/-- A file gets in progress only by the start of an upload. -/
theorem Move.inProgress_new (h : Move X s r a s' r' rs seen)
    (hfiles : ∀ {ctx files}, r = .accepting ctx files → FreshFiles files)
    {sid fid : String} (hin : InProgress s'.session sid fid) :
    InProgress s.session sid fid ∨
      (r'.file = some (sid, fid) ∧ seen = [.uploadStarted sid fid] ∧
        ∃ ip token st dto, r = .starting ip sid fid token ∧
          beginUpload ip sid fid token s.session = .ok (st, dto)) := by
  obtain ⟨session, file, hsess, hid, hf, hstat⟩ := hin
  cases h with
  | claim _ hs => rw [hs] at hsess; cases hsess
  | clear _ hs =>
      rw [hs, clearPendingSession_eq_active] at hsess
      exact .inl ⟨session, file, hsess, hid, hf, hstat⟩
  | activate hs =>
      -- the files of a new session are all pending
      rw [hs] at hsess
      obtain rfl := SessionStateV2.active.inj (Option.some.inj hsess)
      rw [((hfiles rfl).2 fid file hf).1] at hstat
      cases hstat
  | start hb hs =>
      rw [hs] at hsess
      rcases beginUpload_inProgress hb ⟨session, file, hsess, hid, hf, hstat⟩ with
        hin | ⟨rfl, rfl⟩
      · exact .inl hin
      · exact .inr ⟨rfl, rfl, _, _, _, _, rfl, hb⟩
  | finalize _ hs =>
      rw [hs] at hsess
      exact .inl (finalizeFile_inProgress ⟨session, file, hsess, hid, hf, hstat⟩).1
  | remove _ _ _ hs => rw [hs] at hsess; cases hsess
  | rest _ _ hq | abandon _ hq =>
      exact .inl ⟨session, file, hq.session ▸ hsess, hid, hf, hstat⟩
  | accept hq => exact .inl ⟨session, file, hq.session ▸ hsess, hid, hf, hstat⟩
  | reserve _ _ hs | cancelPending _ hs =>
      exact .inl ⟨session, file, hs ▸ hsess, hid, hf, hstat⟩
  | _ hq => exact .inl ⟨session, file, hq.session ▸ hsess, hid, hf, hstat⟩

end Moves

/-! ## §2  The invariant -/

def Seen.claim? : Seen → Option String
  | .claimed sid => some sid
  | _ => none

/-- The shared part: identifiers of claims have been drawn and are claimed
once; the slot holds a claimed session, pending until it was activated and
active afterwards. -/
structure OwnershipGlob (X : Externals) (log : List Seen) (s : ServerV2) : Prop where
  minted : ∀ {sid}, .claimed sid ∈ log → ∃ n < s.minted, sid = X.uuid n
  once : (log.filterMap Seen.claim?).Nodup
  claimed : ∀ {sid}, .activated sid ∈ log → .claimed sid ∈ log
  pending : ∀ {p}, s.session = some (.pending p) →
    .claimed p.sessionId ∈ log ∧ .activated p.sessionId ∉ log
  active : ∀ {session}, s.session = some (.active session) →
    .activated session.sessionId ∈ log

/-- The part of one task: a claim is made with a fresh identifier, and the
entry a task has to settle is in the slot. -/
structure OwnershipLoc (X : Externals) (log : List Seen) (s : ServerV2) (r : Role) :
    Prop where
  minted : ∀ {sid}, r.claims = some sid → ∃ n < s.minted, sid = X.uuid n
  fresh : ∀ {sid}, r.claims = some sid → .claimed sid ∉ log
  settles : ∀ {sid}, r.settles = some sid →
    ∃ p, s.session = some (.pending p) ∧ p.sessionId = sid
  entry : ∀ {p}, r.entry = some p → s.session = some (.pending p)
  files : ∀ {ctx files}, r = .accepting ctx files → FreshFiles files

/-- The part of two tasks: different claims, and no two settle an entry. -/
structure OwnershipApart (r q : Role) : Prop where
  claims : ∀ {sid}, r.claims = some sid → q.claims ≠ some sid
  settles : r.settles = none ∨ q.settles = none

def ownership (X : Externals) : Assertion ServerV2 Task Seen where
  glob := OwnershipGlob X
  loc log s t := OwnershipLoc X log s t.role
  pair t u := OwnershipApart t.role u.role

theorem OwnershipLoc.of_idle {X : Externals} {log : List Seen} {s : ServerV2} {r : Role}
    (hc : r.claims = none) (hs : r.settles = none) : OwnershipLoc X log s r := by
  have hent : ∀ p, r.entry ≠ some p := fun p he =>
    absurd (hs.symm.trans (Role.settles_of_entry he)) (Option.some_ne_none _).symm
  refine ⟨?_, ?_, ?_, ?_, ?_⟩
  · intro _ h
    rw [hc] at h; cases h
  · intro _ h
    rw [hc] at h; cases h
  · intro _ h
    rw [hs] at h; cases h
  · exact fun h => absurd h (hent _)
  · rintro ctx files rfl
    cases hs

theorem OwnershipApart.symm {r q : Role} (h : OwnershipApart r q) : OwnershipApart q r :=
  ⟨fun hq hr => h.claims hr hq, h.settles.symm⟩

theorem OwnershipApart.of_idle {r q : Role} (hc : r.claims = none) (hs : r.settles = none) :
    OwnershipApart r q :=
  ⟨fun h => absurd (hc.symm.trans h) (Option.some_ne_none _).symm, .inl hs⟩

/-! ## §3  The invariant is stable -/

section Stable

variable {X : Externals} {log : List Seen} {s s' : ServerV2} {r r' q : Role} {a : Act}
  {rs : List Role} {seen : List Seen}

theorem Move.ownershipGlob (h : Move X s r a s' r' rs seen) (hg : OwnershipGlob X log s)
    (hl : OwnershipLoc X log s r) : OwnershipGlob X (log ++ seen) s' where
  minted := by
    intro sid hm
    rcases List.mem_append.mp hm with hm | hm
    · obtain ⟨n, hn, hsid⟩ := hg.minted hm
      exact ⟨n, Nat.lt_of_lt_of_le hn h.minted_le, hsid⟩
    · obtain ⟨n, hn, hsid⟩ := hl.minted (h.claimed_mem hm).1
      exact ⟨n, Nat.lt_of_lt_of_le hn h.minted_le, hsid⟩
  once := by
    rw [List.filterMap_append, List.nodup_append]
    by_cases hex : ∃ sid, .claimed sid ∈ seen
    · obtain ⟨sid, hm⟩ := hex
      obtain ⟨hc, -, -, hseen⟩ := h.claimed_mem hm
      refine ⟨hg.once, by simp [hseen, Seen.claim?], ?_⟩
      intro x hx y hy
      obtain rfl : y = sid := by simpa [hseen, Seen.claim?] using hy
      rintro rfl
      obtain ⟨e, he, hex⟩ := List.mem_filterMap.mp hx
      cases e <;> cases hex
      exact hl.fresh hc he
    · have hnil : seen.filterMap Seen.claim? = [] := by
        rw [List.filterMap_eq_nil_iff]
        intro e he
        cases e with
        | claimed sid => exact absurd ⟨sid, he⟩ hex
        | _ => rfl
      rw [hnil]
      exact ⟨hg.once, List.nodup_nil, by simp⟩
  claimed := by
    intro sid hm
    refine List.mem_append_left _ ?_
    rcases List.mem_append.mp hm with hm | hm
    · exact hg.claimed hm
    · obtain ⟨p, hp, rfl⟩ := hl.settles (h.activated_mem hm).1
      exact (hg.pending hp).1
  pending := by
    intro p hp
    -- an activation would have left an active session in the slot
    have hseen : .activated p.sessionId ∉ seen := by
      intro hm
      obtain ⟨-, -, session, hs, -⟩ := h.activated_mem hm
      rw [hs] at hp
      cases hp
    rcases h.pending_new hp with hp' | hm
    · obtain ⟨hcl, hact⟩ := hg.pending hp'
      exact ⟨List.mem_append_left _ hcl, by simp [hact, hseen]⟩
    · refine ⟨List.mem_append_right _ hm, ?_⟩
      have hfresh := hl.fresh (h.claimed_mem hm).1
      have hact : .activated p.sessionId ∉ log := fun hact => hfresh (hg.claimed hact)
      simp [hact, hseen]
  active := by
    intro session' hs'
    rcases h.active_new hs' with ⟨session, hs, hid⟩ | hm
    · exact List.mem_append_left _ (hid ▸ hg.active hs)
    · exact List.mem_append_right _ hm

theorem Move.ownershipLoc (h : Move X s r a s' r' rs seen) (hg : OwnershipGlob X log s)
    (hl : OwnershipLoc X log s r) (hq : q ∈ r' :: rs) :
    OwnershipLoc X (log ++ seen) s' q where
  minted := by
    intro sid hc
    obtain ⟨hsid, hm, -⟩ := h.claims_new hq hc
    exact ⟨s.minted, by omega, hsid⟩
  fresh := by
    intro sid hc hm
    obtain ⟨hsid, -, hseen⟩ := h.claims_new hq hc
    rw [hseen, List.append_nil] at hm
    obtain ⟨n, hn, hsid'⟩ := hg.minted hm
    have := X.uuid_injective (hsid.symm.trans hsid')
    omega
  settles := by
    intro sid hc
    rcases h.settles_new hq hc with ⟨hr, hs, -⟩ | ⟨-, p, hs, hp, -⟩
    · obtain ⟨p, hp, hsid⟩ := hl.settles hr
      exact ⟨p, hs.trans hp, hsid⟩
    · exact ⟨p, hs, hp⟩
  entry := by
    intro p he
    rcases h.settles_new hq (Role.settles_of_entry he) with ⟨-, hs, hent⟩ | ⟨-, p', hs, -, hent⟩
    · exact hs.trans (hl.entry (hent p he))
    · rw [hent p he, hs]
  files := by
    rintro ctx files rfl
    exact h.accepting_new hq

theorem Move.ownershipFrame (h : Move X s r a s' r' rs seen)
    (hq : OwnershipLoc X log s q) (hrq : OwnershipApart r q) :
    OwnershipLoc X (log ++ seen) s' q := by
  have hslot : ∀ {sid}, q.settles = some sid → s'.session = s.session := by
    intro sid hset
    obtain ⟨p, hp, -⟩ := hq.settles hset
    refine h.session_of_pending hp (hrq.settles.resolve_right ?_)
    rw [hset]
    exact Option.some_ne_none _
  refine ⟨?_, ?_, ?_, ?_, hq.files⟩
  · intro sid hc
    obtain ⟨n, hn, hsid⟩ := hq.minted hc
    exact ⟨n, Nat.lt_of_lt_of_le hn h.minted_le, hsid⟩
  · intro sid hc hm
    rcases List.mem_append.mp hm with hm | hm
    · exact hq.fresh hc hm
    · exact hrq.claims (h.claimed_mem hm).1 hc
  · intro sid hset
    obtain ⟨p, hp, hsid⟩ := hq.settles hset
    exact ⟨p, (hslot hset).trans hp, hsid⟩
  · intro p he
    exact (hslot (Role.settles_of_entry he)).trans (hq.entry he)

theorem Move.ownershipApart {v : Role} (h : Move X s r a s' r' rs seen)
    (hq : OwnershipLoc X log s q) (hrq : OwnershipApart r q) (hv : v ∈ r' :: rs) :
    OwnershipApart v q where
  claims := by
    intro sid hc hc'
    obtain ⟨hsid, -, -⟩ := h.claims_new hv hc
    obtain ⟨n, hn, hsid'⟩ := hq.minted hc'
    have := X.uuid_injective (hsid.symm.trans hsid')
    omega
  settles := by
    rw [or_iff_not_imp_left]
    intro hne
    obtain ⟨sid, hset⟩ := Option.ne_none_iff_exists'.mp hne
    rcases h.settles_new hv hset with ⟨hr, -, -⟩ | ⟨hfree, -⟩
    · refine hrq.settles.resolve_left ?_
      rw [hr]
      exact Option.some_ne_none _
    · -- the claim found the slot free, so nobody else has an entry to settle
      rw [Option.eq_none_iff_forall_ne_some]
      intro sid' hset'
      obtain ⟨p, hp, -⟩ := hq.settles hset'
      rw [hfree] at hp
      cases hp

theorem Move.ownershipFork (h : Move X s r a s' r' rs seen) :
    (r' :: rs).Pairwise OwnershipApart := by
  rcases h.spawned with rfl | ⟨rfl, q, rfl⟩
  · exact List.pairwise_singleton _ _
  · rw [List.pairwise_pair]
    exact .of_idle rfl rfl

end Stable

theorem mem_roles {o : Step} {u : Task} (hu : u ∈ o.task :: o.spawned) :
    u.role ∈ o.task.role :: o.spawned.map Task.role :=
  List.mem_map_of_mem (f := Task.role) hu

theorem ownership_stable (X : Externals) (ok : ServerPool → ServerLabel → Prop) :
    (ownership X).Stable (serverMachine X) ok where
  symm := OwnershipApart.symm
  own := fun hp _ ht ho =>
    ⟨(taskStep_move ho).ownershipGlob hp.glob (hp.loc ht),
      fun _ hu => (taskStep_move ho).ownershipLoc hp.glob (hp.loc ht) (mem_roles hu)⟩
  frame := fun hp _ ht ho hji hu =>
    (taskStep_move ho).ownershipFrame (hp.loc hu) (hp.pair (Ne.symm hji) ht hu)
  apart := fun hp _ ht ho hji hu _ hv =>
    (taskStep_move ho).ownershipApart (hp.loc hu) (hp.pair (Ne.symm hji) ht hu)
      (mem_roles hv)
  fork := fun _ _ _ ho => by
    have := (taskStep_move ho).ownershipFork
    rwa [← List.map_cons, List.pairwise_map] at this
  env := by
    intro p e s ts hp _ he
    obtain ⟨hq, hidle⟩ := envStep_quiet he
    have hnew : ∀ t ∈ ts, t.role.claims = none ∧ t.role.settles = none := fun t ht =>
      ⟨Role.claims_of_idle (hidle t ht), Role.settles_of_idle (hidle t ht)⟩
    refine ⟨?_, ?_, ?_, ?_, ?_⟩
    · refine ⟨?_, hp.glob.once, hp.glob.claimed, ?_, ?_⟩
      · intro sid hm
        obtain ⟨n, hn, hsid⟩ := hp.glob.minted hm
        exact ⟨n, Nat.lt_of_lt_of_le hn hq.minted, hsid⟩
      · intro p' hp'
        exact hp.glob.pending (hq.session ▸ hp')
      · intro session hs
        exact hp.glob.active (hq.session ▸ hs)
    · intro i u hu
      have hl := hp.loc hu
      refine ⟨?_, hl.fresh, ?_, ?_, hl.files⟩
      · intro sid hc
        obtain ⟨n, hn, hsid⟩ := hl.minted hc
        exact ⟨n, Nat.lt_of_lt_of_le hn hq.minted, hsid⟩
      · intro sid hset
        rw [hq.session]
        exact hl.settles hset
      · intro p' he'
        rw [hq.session]
        exact hl.entry he'
    · intro u hu
      exact .of_idle (hnew u hu).1 (hnew u hu).2
    · intro i u _ v hv
      exact .of_idle (hnew v hv).1 (hnew v hv).2
    · refine List.pairwise_of_forall_mem_list ?_
      intro u hu v _
      exact .of_idle (hnew u hu).1 (hnew u hu).2

/-- The invariant holds in every state a started server reaches. -/
theorem ownership_reach {X : Externals} {pin : Option String} {verify : Bool} {cap : ℕ}
    {p : ServerPool} (h : Reach (serverStep X) (.init pin verify cap) p) :
    (ownership X).Holds p := by
  refine (ownership_stable X _).run (Assertion.holds_nil ?_) h
  constructor <;> simp [ServerV2.start]

/-! ## §4  Session ownership -/

/-- The changes of the slot that a role is entitled to: the claim of a free
slot, what the owner of the pending entry does to that very entry, and, for
an active session, what the tasks of the session with that identifier do. -/
inductive Entitled : Role → Option SessionStateV2 → Option SessionStateV2 → Prop
  | unchanged (r : Role) (slot : Option SessionStateV2) : Entitled r slot slot
  | claim (ctx : PrepareCtx) : Entitled (.claiming ctx) none (some (.pending ctx.pending))
  | activate (ctx : PrepareCtx) (files : AssocMap String SessionFileV2) :
      Entitled (.accepting ctx files) (some (.pending ctx.pending))
        (some (.active ⟨ctx.sessionId, ctx.clientInfo.ip, files⟩))
  | clear (ctx : PrepareCtx) :
      Entitled (.clearing ctx) (some (.pending ctx.pending)) none
  | clearGuard (p : PendingSessionV2) :
      Entitled (.clearGuard p.sessionId) (some (.pending p)) none
  | start (session : UploadSessionV2) (fid token : String) :
      Entitled (.starting session.senderIp session.sessionId fid token)
        (some (.active session))
        (some (.active { session with
          files := session.files.modify fid SessionFileV2.start }))
  | settle (r : Role) (session : UploadSessionV2) (fid : String) (result : SaveResult)
      (hr : r.file = some (session.sessionId, fid)) :
      Entitled r (some (.active session))
        (some (.active { session with
          files := session.files.modify fid (SessionFileV2.finalize result) }))
  | complete (r : Role) (session : UploadSessionV2) (fid : String)
      (hr : r.file = some (session.sessionId, fid)) :
      Entitled r (some (.active session)) none
  | remove (session : UploadSessionV2) (ip : Option PeerIp)
      (hip : ∀ i ∈ ip, session.senderIp = i) :
      Entitled (.removing session.sessionId ip) (some (.active session)) none

theorem Entitled.of_eq {r : Role} {slot slot' : Option SessionStateV2} (h : slot' = slot) :
    Entitled r slot slot' :=
  h ▸ .unchanged r slot

/-- A finalization changes no session but its own. -/
theorem finalizeFile_entitled {r : Role} {sid fid : String} {result : SaveResult}
    {slot : Option SessionStateV2} (hr : r.file = some (sid, fid)) :
    Entitled r slot (finalizeFile sid fid result slot).1 := by
  by_cases hown : ∃ session, slot = some (.active session) ∧ session.sessionId = sid
  · obtain ⟨session, rfl, rfl⟩ := hown
    rw [finalizeFile_active rfl]
    dsimp only
    split_ifs
    · exact .complete r session fid hr
    · exact .settle r session fid result hr
  · rw [finalizeFile_of_ne fun session h1 h2 => hown ⟨session, h1, h2⟩]
    exact .unchanged r slot

/-- The entry that a move of its owner clears is the owner's. -/
theorem clearPendingSession_entitled {X : Externals} {log : List Seen} {s : ServerV2}
    {r : Role} {sid : String}
    (hr : (∃ ctx, r = .clearing ctx ∧ ctx.sessionId = sid) ∨ r = .clearGuard sid)
    (hl : OwnershipLoc X log s r) : Entitled r s.session (clearPendingSession s.session) := by
  rcases hr with ⟨ctx, rfl, rfl⟩ | rfl
  · rw [hl.entry rfl]
    exact .clear ctx
  · obtain ⟨p, hp, rfl⟩ := hl.settles rfl
    rw [hp]
    exact .clearGuard p

theorem Move.entitled {X : Externals} {log : List Seen} {s s' : ServerV2} {r r' : Role}
    {a : Act} {rs : List Role} {seen : List Seen} (h : Move X s r a s' r' rs seen)
    (hl : OwnershipLoc X log s r) : Entitled r s.session s'.session := by
  cases h with
  | claim hfree hs =>
      rw [hfree, hs]
      exact .claim _
  | clear hr hs =>
      rw [hs]
      exact clearPendingSession_entitled hr hl
  | activate hs =>
      rw [hl.entry rfl, hs]
      exact .activate _ _
  | start hb hs =>
      obtain ⟨session, file, hsess, rfl, rfl, -, -, -, -, rfl⟩ := beginUpload_eq_ok.mp hb
      rw [hsess, hs]
      exact .start session _ _
  | finalize hr hs =>
      rw [hs]
      refine finalizeFile_entitled ?_
      rcases hr with rfl | ⟨rfl, rfl⟩ <;> rfl
  | remove hp hid hip hs =>
      subst hid
      rw [hp, hs]
      exact .remove _ _ hip
  | rest _ _ hq | abandon _ hq => exact .of_eq hq.session
  | accept hq => exact .of_eq hq.session
  | reserve _ _ hs | cancelPending _ hs => exact .of_eq hs
  | _ hq => exact .of_eq hq.session

/-- What session ownership says of a step of the server from `p` to `p'`:
a task changes the slot only as its role is entitled to, the environment
does not change it, no session identifier was claimed twice (so equal
identifiers mean the same session), at most one task has an entry to settle
and then the slot holds that entry, and a prepare-upload that finds the slot
occupied is answered 409 and leaves it untouched. -/
structure OwnedStep (p : ServerPool) (l : ServerLabel) (p' : ServerPool) : Prop where
  entitled : ∀ (i : ℕ) (a : Act), l = .task i a → ∃ t : Task, p.tasks[i]? = some t ∧
    Entitled t.role p.shared.session p'.shared.session
  env : ∀ e, l = .env e → p'.shared.session = p.shared.session
  once : (p'.log.filterMap Seen.claim?).Nodup
  alone : ∀ (i j : ℕ) (t u : Task), p.tasks[i]? = some t → p.tasks[j]? = some u →
    t.role.settles.isSome → u.role.settles.isSome → i = j
  holds : ∀ (i : ℕ) (t : Task) (sid : String), p.tasks[i]? = some t → t.role.settles = some sid →
    ∃ pending, p.shared.session = some (.pending pending) ∧ pending.sessionId = sid
  conflict : ∀ (i : ℕ) (ctx : PrepareCtx) (st : SessionStateV2), l = .task i .go →
    p.tasks[i]? = some (.prepareUpload (.claim ctx)) → p.shared.session = some st →
    p'.shared.session = some st ∧ p'.tasks[i]? = some
      (.answered (.error (.message .conflict "Blocked by another session")))

theorem claim_conflict {X : Externals} {p p' : ServerPool} {i : ℕ} {ctx : PrepareCtx}
    {st : SessionStateV2} (hst : serverStep X p (.task i .go) = some p')
    (ht : p.tasks[i]? = some (.prepareUpload (.claim ctx)))
    (hs : p.shared.session = some st) :
    p'.shared.session = some st ∧ p'.tasks[i]? = some
      (.answered (.error (.message .conflict "Blocked by another session"))) := by
  obtain ⟨t, o, ht', ho, rfl⟩ := poolStep_task.mp hst
  obtain rfl := Option.some.inj (ht.symm.trans ht')
  have ho' : prepareUploadStep X p.shared (.claim ctx) .go = some o := ho
  simp only [prepareUploadStep, hs, claimSlot_some] at ho'
  obtain rfl := Option.some.inj ho'
  refine ⟨hs, ?_⟩
  have hlen : i < p.tasks.length := (List.getElem?_eq_some_iff.mp ht).1
  simp [Pool.advance, hlen]

/-- **Session ownership**: in every interleaving, each step of the server
respects who owns the slot. -/
theorem session_ownership {X : Externals} {pin : Option String} {verify : Bool} {cap : ℕ}
    {p p' : ServerPool} {l : ServerLabel}
    (hreach : Reach (serverStep X) (.init pin verify cap) p)
    (hst : serverStep X p l = some p') : OwnedStep p l p' := by
  have hp := ownership_reach hreach
  have hp' : (ownership X).Holds p' := ownership_reach (hreach.snoc trivial hst)
  refine ⟨?_, ?_, hp'.glob.once, ?_, ?_, ?_⟩
  · rintro i a rfl
    obtain ⟨t, o, ht, ho, rfl⟩ := poolStep_task.mp hst
    exact ⟨t, ht, (taskStep_move ho).entitled (hp.loc ht)⟩
  · rintro e rfl
    obtain ⟨s, ts, he, rfl⟩ := poolStep_env.mp hst
    exact (envStep_quiet he).1.session
  · intro i j t u ht hu hts hus
    by_contra hij
    rcases (hp.pair hij ht hu).settles with h | h
    · rw [h] at hts; cases hts
    · rw [h] at hus; cases hus
  · intro i t sid ht hset
    exact (hp.loc ht).settles hset
  · rintro i ctx st rfl ht hs
    exact claim_conflict hst ht hs

/-- The second of two concurrent requests is the one that conflicts. -/
theorem session_ownership_second_request :
    ∃ p p', Reach (serverStep .unary) Sample.init p ∧
      serverStep .unary p (.task 1 .go) = some p' ∧ p.shared.session.isSome ∧
      OwnedStep p (.task 1 .go) p' := by
  obtain ⟨p, hp, hcheck⟩ := exists_of_exec_any (serverStep .unary) Sample.init
    (Sample.prepare 0 ++ (Sample.prepare 1).take 3)
    (fun p => p.shared.session.isSome &&
      (serverStep .unary p (.task 1 .go)).isSome) rfl
  rw [Bool.and_eq_true] at hcheck
  obtain ⟨p', hp'⟩ := Option.isSome_iff_exists.mp hcheck.2
  exact ⟨p, p', reach_of_exec hp, hp', hcheck.1,
    session_ownership (reach_of_exec hp) hp'⟩

end FireBoxTransfer

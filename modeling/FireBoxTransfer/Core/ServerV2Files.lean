import FireBoxTransfer.Core.ServerV2Ownership

/-!
# The per-file upload machine

A file of an active session goes from pending to in progress and from there
to finished, failed, or, after a checksum mismatch, back to pending for a
retry. The invariants that make this a machine with one owner per file and a
bounded number of attempts depend on each other: the owner knows that the
file stays in progress until it settles it, because nobody else may start or
settle it meanwhile.
-/

namespace FireBoxTransfer

open TaskPool Runs

/-! ## §1  What one move does to a file -/

section Moves

variable {X : Externals} {s s' : ServerV2} {r r' q : Role} {a : Act} {rs : List Role}
  {seen : List Seen} {sid fid : String}

/-- How a file of the active session came to be what it is after a move. -/
inductive FileChange (s : ServerV2) (r r' : Role) (seen : List Seen) (sid fid : String)
    (file' : SessionFileV2) : Prop
  | same (session : UploadSessionV2) (hs : s.session = some (.active session))
      (hid : session.sessionId = sid) (hf : session.files.get? fid = some file')
      (hseen : .uploadStarted sid fid ∉ seen)
  | start (session : UploadSessionV2) (file : SessionFileV2)
      (hs : s.session = some (.active session)) (hid : session.sessionId = sid)
      (hf : session.files.get? fid = some file) (hst : file.status = .pending)
      (hfile : file' = file.start) (hr' : r'.file = some (sid, fid))
      (hseen : seen = [.uploadStarted sid fid])
  | settle (session : UploadSessionV2) (file : SessionFileV2) (result : SaveResult)
      (hs : s.session = some (.active session)) (hid : session.sessionId = sid)
      (hf : session.files.get? fid = some file) (hfile : file' = file.finalize result)
      (hr : r.file = some (sid, fid)) (hseen : seen = [])
  | fresh (hr : r.settles = some sid) (hseen : seen = [.activated sid])
      (hst : file'.status = .pending) (hatt : file'.attempts = 0)

theorem Move.fileChange (h : Move X s r a s' r' rs seen)
    (hfiles : ∀ {ctx files}, r = .accepting ctx files → FreshFiles files)
    {session' : UploadSessionV2} {file' : SessionFileV2}
    (hs' : s'.session = some (.active session'))
    (hf' : session'.files.get? fid = some file') :
    FileChange s r r' seen session'.sessionId fid file' := by
  have hsame : s'.session = s.session → .uploadStarted session'.sessionId fid ∉ seen →
      FileChange s r r' seen session'.sessionId fid file' :=
    fun heq hseen => .same session' (heq ▸ hs') rfl hf' hseen
  cases h with
  | claim _ hs => rw [hs] at hs'; cases hs'
  | clear _ hs =>
      rw [hs, clearPendingSession_eq_active] at hs'
      exact .same session' hs' rfl hf' (by simp)
  | activate hs =>
      rw [hs] at hs'
      obtain rfl := SessionStateV2.active.inj (Option.some.inj hs')
      obtain ⟨hst, hatt⟩ := (hfiles rfl).2 fid file' hf'
      exact .fresh rfl rfl hst hatt
  | start hb hs =>
      rename_i ip sid₀ fid₀ token st dto _ _
      obtain ⟨session, file, hsess, rfl, -, hf, -, hst, -, rfl⟩ := beginUpload_eq_ok.mp hb
      rw [hs] at hs'
      obtain rfl := SessionStateV2.active.inj (Option.some.inj hs')
      by_cases hfid : fid = fid₀
      · subst hfid
        rw [AssocMap.get?_modify_self, hf] at hf'
        obtain rfl := Option.some.inj hf'
        exact .start session file hsess rfl hf hst rfl rfl rfl
      · rw [AssocMap.get?_modify_ne hfid] at hf'
        exact .same session hsess rfl hf' (by simp [hfid])
  | finalize hr hs =>
      rename_i sid₀ fid₀ result _ _
      rw [hs] at hs'
      obtain ⟨session, hsess, ⟨-, rfl⟩ | ⟨rfl, -, rfl⟩⟩ := finalizeFile_eq_active hs'
      · exact .same _ hsess rfl hf' (by simp)
      · by_cases hfid : fid = fid₀
        · subst hfid
          rw [AssocMap.get?_modify_self] at hf'
          obtain ⟨file, hf, rfl⟩ := Option.map_eq_some_iff.mp hf'
          refine .settle session file result hsess rfl hf rfl ?_ rfl
          rcases hr with rfl | ⟨rfl, -⟩ <;> rfl
        · rw [AssocMap.get?_modify_ne hfid] at hf'
          exact .same session hsess rfl hf' (by simp)
  | remove _ _ _ hs => rw [hs] at hs'; cases hs'
  | rest _ _ hq | abandon _ hq => exact hsame hq.session (by simp)
  | accept hq => exact hsame hq.session (by simp)
  | reserve _ _ hs | cancelPending _ hs => exact hsame hs (by simp)
  | _ hq => exact hsame hq.session (by simp)

/-- The start of an upload is noted when a pending file of the active session
gets in progress. -/
theorem Move.uploadStarted_mem (h : Move X s r a s' r' rs seen)
    (hm : .uploadStarted sid fid ∈ seen) :
    seen = [.uploadStarted sid fid] ∧ ∃ session file, s.session = some (.active session) ∧
      session.sessionId = sid ∧ session.files.get? fid = some file ∧
      file.status = .pending := by
  cases h <;> simp at hm
  case start hb _ _ _ =>
    obtain ⟨rfl, rfl⟩ := hm
    obtain ⟨session, file, hsess, hid, -, hf, -, hst, -⟩ := beginUpload_eq_ok.mp hb
    exact ⟨rfl, session, file, hsess, hid, hf, hst⟩

/-- The duty to settle a file is handed on, with the slot unchanged, or
arises with the start of its upload. -/
theorem Move.file_new (h : Move X s r a s' r' rs seen) (hq : q ∈ r' :: rs)
    (hc : q.file = some (sid, fid)) :
    (r.file = some (sid, fid) ∧ s'.session = s.session ∧ seen = []) ∨
      seen = [.uploadStarted sid fid] := by
  cases h with
  | rest _ hr' =>
      rw [List.mem_singleton] at hq
      subst hq
      rw [Role.file_of_idle hr'] at hc
      cases hc
  | start =>
      rw [List.mem_singleton] at hq
      subst hq
      obtain ⟨rfl, rfl⟩ := Prod.mk.inj (Option.some.inj hc)
      exact .inr rfl
  | upload hquiet | finish hquiet =>
      rw [List.mem_singleton] at hq
      subst hq
      exact .inl ⟨hc, hquiet.session, rfl⟩
  | abandon =>
      simp only [List.mem_cons, List.not_mem_nil, or_false] at hq
      rcases hq with rfl | rfl <;> cases hc
  | orphan hquiet =>
      simp only [List.mem_cons, List.not_mem_nil, or_false] at hq
      rcases hq with rfl | rfl
      · cases hc
      · exact .inl ⟨hc, hquiet.session, rfl⟩
  | _ =>
      rw [List.mem_singleton] at hq
      subst hq
      cases hc

theorem SessionFileV2.finalize_of_final {result : SaveResult} {file : SessionFileV2}
    (h : file.status.isFinal = true) : file.finalize result = file := by
  rw [SessionFileV2.finalize, if_neg]
  intro hst
  rw [hst] at h
  cases h

/-- A file in a final status is left alone as long as its session is in the
slot. -/
theorem Move.final_kept (h : Move X s r a s' r' rs seen)
    (hslot : ∀ {sid}, r.settles = some sid → ∃ p, s.session = some (.pending p))
    {session session' : UploadSessionV2} {file : SessionFileV2}
    (hs : s.session = some (.active session)) (hs' : s'.session = some (.active session'))
    (hf : session.files.get? fid = some file) (hfinal : file.status.isFinal = true) :
    session'.files.get? fid = some file := by
  have hsame : s'.session = s.session → session'.files.get? fid = some file := by
    intro heq
    rw [heq, hs] at hs'
    obtain rfl := SessionStateV2.active.inj (Option.some.inj hs')
    exact hf
  cases h with
  | claim hfree => rw [hfree] at hs; cases hs
  | clear _ hc => exact hsame (by rw [hc, hs]; rfl)
  | activate =>
      obtain ⟨p, hp⟩ := hslot rfl
      rw [hp] at hs
      cases hs
  | start hb hst =>
      rename_i ip sid₀ fid₀ token st dto _ _
      obtain ⟨session₀, file₀, hs₀, -, -, hf₀, -, hpend, -, rfl⟩ := beginUpload_eq_ok.mp hb
      rw [hs₀] at hs
      obtain rfl := SessionStateV2.active.inj (Option.some.inj hs)
      rw [hst] at hs'
      obtain rfl := SessionStateV2.active.inj (Option.some.inj hs')
      have hfid : fid ≠ fid₀ := by
        rintro rfl
        obtain rfl := Option.some.inj (hf.symm.trans hf₀)
        rw [hpend] at hfinal
        cases hfinal
      rw [AssocMap.get?_modify_ne hfid]
      exact hf
  | finalize _ hst =>
      rename_i sid₀ fid₀ result _ _ _
      rw [hst] at hs'
      obtain ⟨session₀, hs₀, ⟨-, rfl⟩ | ⟨-, -, rfl⟩⟩ := finalizeFile_eq_active hs' <;>
        obtain rfl := SessionStateV2.active.inj (Option.some.inj (hs.symm.trans hs₀))
      · exact hf
      · by_cases hfid : fid = fid₀
        · subst hfid
          rw [AssocMap.get?_modify_self, hf]
          exact congrArg some (SessionFileV2.finalize_of_final hfinal)
        · rw [AssocMap.get?_modify_ne hfid]
          exact hf
  | remove _ _ _ hst => rw [hst] at hs'; cases hs'
  | rest _ _ hq | abandon _ hq => exact hsame hq.session
  | accept hq => exact hsame hq.session
  | reserve _ _ hst | cancelPending _ hst => exact hsame hst
  | _ hq => exact hsame hq.session

/-- No move leaves a session behind that is complete: the one that settles
the last file removes it. -/
theorem Move.isComplete_new (h : Move X s r a s' r' rs seen)
    (hfiles : ∀ {ctx files}, r = .accepting ctx files → FreshFiles files)
    (hopen : ∀ {session}, s.session = some (.active session) → session.isComplete = false)
    {session' : UploadSessionV2} (hs' : s'.session = some (.active session')) :
    session'.isComplete = false := by
  cases h with
  | claim _ hs => rw [hs] at hs'; cases hs'
  | clear _ hs => exact hopen (clearPendingSession_eq_active.mp (hs ▸ hs'))
  | activate hs =>
      rw [hs] at hs'
      obtain rfl := SessionStateV2.active.inj (Option.some.inj hs')
      obtain ⟨hne, hnew⟩ := hfiles rfl
      obtain ⟨fid, file, hf⟩ := AssocMap.exists_get?_of_ne_empty hne
      refine isComplete_eq_false_iff.mpr ⟨fid, file, hf, ?_⟩
      rw [(hnew fid file hf).1]
      rfl
  | start hb hs =>
      rename_i ip sid₀ fid₀ token st dto _ _
      obtain ⟨session, file, -, -, -, hf, -, -, -, rfl⟩ := beginUpload_eq_ok.mp hb
      rw [hs] at hs'
      obtain rfl := SessionStateV2.active.inj (Option.some.inj hs')
      refine isComplete_eq_false_iff.mpr ⟨fid₀, file.start, ?_, rfl⟩
      rw [AssocMap.get?_modify_self, hf]
      rfl
  | finalize _ hs =>
      rw [hs] at hs'
      obtain ⟨session, hsess, ⟨-, rfl⟩ | ⟨-, hc, -⟩⟩ := finalizeFile_eq_active hs'
      · exact hopen hsess
      · exact hc
  | remove _ _ _ hs => rw [hs] at hs'; cases hs'
  | rest _ _ hq | abandon _ hq => exact hopen (hq.session ▸ hs')
  | accept hq => exact hopen (hq.session ▸ hs')
  | reserve _ _ hs | cancelPending _ hs => exact hopen (hs ▸ hs')
  | _ hq => exact hopen (hq.session ▸ hs')

end Moves

/-! ## §2  The invariant -/

/-- How often an upload of the file was started. -/
def starts (log : List Seen) (sid fid : String) : ℕ :=
  log.count (.uploadStarted sid fid)

/-- A file counts its starts and has one left as long as it is pending. -/
structure FileOk (log : List Seen) (sid fid : String) (file : SessionFileV2) : Prop where
  count : starts log sid fid = file.attempts
  le : file.attempts ≤ maxUploadAttempts
  left : file.status = .pending → file.attempts < maxUploadAttempts

structure FilesGlob (log : List Seen) (s : ServerV2) : Prop where
  incomplete : ∀ {session}, s.session = some (.active session) →
    session.isComplete = false
  files : ∀ {session fid file}, s.session = some (.active session) →
    session.files.get? fid = some file → FileOk log session.sessionId fid file
  le : ∀ sid fid, starts log sid fid ≤ maxUploadAttempts
  activated : ∀ {sid fid}, .uploadStarted sid fid ∈ log → .activated sid ∈ log

/-- The owner of a file finds it in progress as long as its session is in
the slot. -/
structure FilesLoc (log : List Seen) (s : ServerV2) (r : Role) : Prop where
  started : ∀ {sid fid}, r.file = some (sid, fid) → .uploadStarted sid fid ∈ log
  inProgress : ∀ {sid fid session file}, r.file = some (sid, fid) →
    s.session = some (.active session) → session.sessionId = sid →
    session.files.get? fid = some file → file.status = .inProgress

def uploads : Assertion ServerV2 Task Seen where
  glob := FilesGlob
  loc log s t := FilesLoc log s t.role
  pair t u := ∀ k, t.role.file = some k → u.role.file ≠ some k

theorem FilesLoc.of_none {log : List Seen} {s : ServerV2} {r : Role}
    (h : r.file = none) : FilesLoc log s r :=
  ⟨fun hf => absurd (h.symm.trans hf) (Option.some_ne_none _).symm,
    fun hf => absurd (h.symm.trans hf) (Option.some_ne_none _).symm⟩

/-! ## §3  The invariant is stable -/

section Stable

variable {X : Externals} {log : List Seen} {s s' : ServerV2} {r r' q : Role} {a : Act}
  {rs : List Role} {seen : List Seen}

theorem starts_append (log seen : List Seen) (sid fid : String) :
    starts (log ++ seen) sid fid = starts log sid fid + starts seen sid fid :=
  List.count_append

theorem starts_of_not_mem {seen : List Seen} {sid fid : String}
    (h : .uploadStarted sid fid ∉ seen) : starts seen sid fid = 0 :=
  List.count_eq_zero.mpr h

theorem SessionFileV2.finalize_attempts {result : SaveResult} {file : SessionFileV2} :
    (file.finalize result).attempts = file.attempts := by
  rw [SessionFileV2.finalize]
  split_ifs <;> rfl

/-- A settled file is pending again only with an attempt left. -/
theorem SessionFileV2.finalize_pending {result : SaveResult} {file : SessionFileV2}
    (h : (file.finalize result).status = .pending) :
    file.status = .pending ∨ file.attempts < maxUploadAttempts := by
  by_cases hst : file.status = .inProgress
  · rw [SessionFileV2.finalize, if_pos hst] at h
    cases result with
    | hashMismatch =>
        simp only [finalStatus] at h
        split_ifs at h with hlt
        exact .inr hlt
    | _ => cases h
  · rw [SessionFileV2.finalize, if_neg hst] at h
    exact .inl h

theorem FileOk.start {sid fid : String} {file : SessionFileV2}
    (h : FileOk log sid fid file) (hst : file.status = .pending) :
    FileOk (log ++ [.uploadStarted sid fid]) sid fid file.start := by
  have hlt := h.left hst
  have hatt : file.start.attempts = file.attempts + 1 := by
    show min (file.attempts + 1) 255 = file.attempts + 1
    simp only [maxUploadAttempts] at hlt
    omega
  refine ⟨?_, by rw [hatt]; exact hlt, fun hp => by cases hp⟩
  rw [starts_append, h.count, hatt]
  simp [starts]

theorem FileOk.finalize {sid fid : String} {file : SessionFileV2} {result : SaveResult}
    (h : FileOk log sid fid file) : FileOk log sid fid (file.finalize result) := by
  refine ⟨?_, ?_, ?_⟩
  · rw [SessionFileV2.finalize_attempts]
    exact h.count
  · rw [SessionFileV2.finalize_attempts]
    exact h.le
  · intro hp
    rw [SessionFileV2.finalize_attempts]
    exact (SessionFileV2.finalize_pending hp).elim h.left id

theorem Move.filesGlob (h : Move X s r a s' r' rs seen) (hog : OwnershipGlob X log s)
    (hol : OwnershipLoc X log s r) (hg : FilesGlob log s) :
    FilesGlob (log ++ seen) s' where
  incomplete := h.isComplete_new hol.files hg.incomplete
  files := by
    intro session' fid file' hs' hf'
    cases h.fileChange hol.files hs' hf' with
    | same session hs hid hf hseen =>
        have hok := hg.files hs hf
        rw [hid] at hok
        refine ⟨?_, hok.le, hok.left⟩
        rw [starts_append, starts_of_not_mem hseen]
        exact hok.count
    | start session file hs hid hf hst hfile _ hseen =>
        have hok := hg.files hs hf
        rw [hid] at hok
        rw [hfile, hseen]
        exact hok.start hst
    | settle session file result hs hid hf hfile _ hseen =>
        have hok := hg.files hs hf
        rw [hid] at hok
        rw [hfile, hseen, List.append_nil]
        exact hok.finalize
    | fresh hr hseen hst hatt =>
        -- no upload of the session was started before it became active
        obtain ⟨p, hp, hpid⟩ := hol.settles hr
        have hnot : .uploadStarted session'.sessionId fid ∉ log ++ seen := by
          rw [hseen, ← hpid]
          intro hm
          exact (hog.pending hp).2 (hg.activated (by simpa using hm))
        refine ⟨?_, ?_, ?_⟩
        · rw [starts_of_not_mem hnot, hatt]
        · rw [hatt]
          exact Nat.zero_le _
        · intro _
          rw [hatt]
          decide
  le := by
    intro sid fid
    by_cases hm : .uploadStarted sid fid ∈ seen
    · obtain ⟨hseen, session, file, hs, rfl, hf, hst⟩ := h.uploadStarted_mem hm
      have hok := (hg.files hs hf).start hst
      rw [hseen, hok.count]
      exact hok.le
    · rw [starts_append, starts_of_not_mem hm]
      exact hg.le sid fid
  activated := by
    intro sid fid hm
    refine List.mem_append_left _ ?_
    rcases List.mem_append.mp hm with hm | hm
    · exact hg.activated hm
    · obtain ⟨-, session, file, hs, rfl, -⟩ := h.uploadStarted_mem hm
      exact hog.active hs

theorem Move.filesLoc (h : Move X s r a s' r' rs seen) (hol : OwnershipLoc X log s r)
    (hl : FilesLoc log s r) (hq : q ∈ r' :: rs) : FilesLoc (log ++ seen) s' q where
  started := by
    intro sid fid hc
    rcases h.file_new hq hc with ⟨hr, -, -⟩ | hseen
    · exact List.mem_append_left _ (hl.started hr)
    · exact List.mem_append_right _ (by rw [hseen]; exact List.mem_singleton_self _)
  inProgress := by
    intro sid fid session' file' hc hs' hid hf'
    rcases h.file_new hq hc with ⟨hr, hsame, -⟩ | hseen
    · exact hl.inProgress hr (hsame ▸ hs') hid hf'
    · subst hid
      cases h.fileChange hol.files hs' hf' with
      | same _ _ _ _ hno => exact absurd (by rw [hseen]; simp) hno
      | start session file hs hid hf hst hfile => rw [hfile]; rfl
      | settle _ _ _ _ _ _ _ _ hnil => rw [hseen] at hnil; cases hnil
      | fresh _ hact => rw [hseen] at hact; cases hact

theorem Move.filesFrame (h : Move X s r a s' r' rs seen) (hog : OwnershipGlob X log s)
    (hol : OwnershipLoc X log s r) (hg : FilesGlob log s) (hq : FilesLoc log s q)
    (hrq : ∀ k, r.file = some k → q.file ≠ some k) : FilesLoc (log ++ seen) s' q where
  started := fun hc => List.mem_append_left _ (hq.started hc)
  inProgress := by
    rintro sid fid session' file' hc hs' rfl hf'
    cases h.fileChange hol.files hs' hf' with
    | same session hs hid hf => exact hq.inProgress hc hs hid hf
    | start session file hs hid hf hst =>
        -- nobody else starts a file that is in progress
        rw [hq.inProgress hc hs hid hf] at hst
        cases hst
    | settle _ _ _ _ _ _ _ hr => exact absurd hc (hrq _ hr)
    | fresh hr =>
        obtain ⟨p, hp, hpid⟩ := hol.settles hr
        refine absurd (hg.activated (hq.started hc)) ?_
        rw [← hpid]
        exact (hog.pending hp).2

theorem Move.filesApart {v : Role} (h : Move X s r a s' r' rs seen)
    (hq : FilesLoc log s q) (hrq : ∀ k, r.file = some k → q.file ≠ some k)
    (hv : v ∈ r' :: rs) : ∀ k, v.file = some k → q.file ≠ some k := by
  rintro ⟨sid, fid⟩ hc hqc
  rcases h.file_new hv hc with ⟨hr, -, -⟩ | hseen
  · exact hrq _ hr hqc
  · have hm : .uploadStarted sid fid ∈ seen := by
      rw [hseen]
      exact List.mem_singleton_self _
    obtain ⟨-, session, file, hs, hid, hf, hst⟩ := h.uploadStarted_mem hm
    rw [hq.inProgress hqc hs hid hf] at hst
    cases hst

end Stable

theorem uploads_stable (X : Externals) :
    uploads.Stable (serverMachine X) (fun p _ => True ∧ (ownership X).Holds p) where
  symm := fun h k hu ht => h k ht hu
  own := by
    rintro p i a t o hp ⟨-, hown⟩ ht ho
    have hm := taskStep_move ho
    exact ⟨hm.filesGlob hown.glob (hown.loc ht) hp.glob, fun u hu =>
      hm.filesLoc (hown.loc ht) (hp.loc ht) (mem_roles hu)⟩
  frame := by
    rintro p i j a t u o hp ⟨-, hown⟩ ht ho hji hu
    exact (taskStep_move ho).filesFrame hown.glob (hown.loc ht) hp.glob (hp.loc hu)
      (hp.pair (Ne.symm hji) ht hu)
  apart := by
    rintro p i j a t u o hp - ht ho hji hu v hv
    exact (taskStep_move ho).filesApart (hp.loc hu) (hp.pair (Ne.symm hji) ht hu)
      (mem_roles hv)
  fork := by
    rintro p i a t o - - - ho
    rcases (taskStep_move ho).spawned with hs | ⟨hr, q, hs⟩
    · rw [List.map_eq_nil_iff.mp hs]
      exact List.pairwise_singleton _ _
    · obtain ⟨u, hu, -⟩ := List.map_eq_singleton_iff.mp hs
      rw [hu, List.pairwise_pair]
      intro k hk
      rw [hr] at hk
      cases hk
  env := by
    rintro p e s ts hp - he
    obtain ⟨hq, hidle⟩ := envStep_quiet he
    have hnone : ∀ t ∈ ts, t.role.file = none := fun t ht => Role.file_of_idle (hidle t ht)
    refine ⟨⟨?_, ?_, hp.glob.le, hp.glob.activated⟩, ?_, ?_, ?_, ?_⟩
    · intro session hs
      exact hp.glob.incomplete (hq.session ▸ hs)
    · intro session fid file hs hf
      exact hp.glob.files (hq.session ▸ hs) hf
    · intro i u hu
      refine ⟨(hp.loc hu).started, fun hc hs hid hf => ?_⟩
      exact (hp.loc hu).inProgress hc (hq.session ▸ hs) hid hf
    · exact fun u hu => .of_none (hnone u hu)
    · intro i u _ v hv k hk
      rw [hnone v hv] at hk
      cases hk
    · refine List.pairwise_of_forall_mem_list ?_
      intro u hu v _ k hk
      rw [hnone u hu] at hk
      cases hk

theorem uploads_reach {X : Externals} {pin : Option String} {verify : Bool} {cap : ℕ}
    {p : ServerPool} (h : Reach (serverStep X) (.init pin verify cap) p) :
    uploads.Holds p := by
  refine (uploads_stable X).run (Assertion.holds_nil ?_)
    (h.strengthen fun q hq => ownership_reach hq)
  refine ⟨?_, ?_, ?_, ?_⟩ <;> simp [ServerV2.start, starts]

/-! ## §4  The upload machine -/

/-- The file has reached this final form, in a session that was active. -/
def FinalAt (sid fid : String) (file : SessionFileV2) (p : ServerPool) : Prop :=
  .activated sid ∈ p.log ∧ ∀ session, p.shared.session = some (.active session) →
    session.sessionId = sid → session.files.get? fid = some file

theorem finalAt_step {X : Externals} {p p' : ServerPool} {l : ServerLabel} {sid fid : String}
    {file : SessionFileV2} (hfinal : file.status.isFinal = true)
    (hown : (ownership X).Holds p) (h : FinalAt sid fid file p)
    (hst : serverStep X p l = some p') : FinalAt sid fid file p' := by
  cases l with
  | task i a =>
      obtain ⟨t, o, ht, ho, rfl⟩ := poolStep_task.mp hst
      have hm := taskStep_move ho
      have hl := hown.loc ht
      refine ⟨List.mem_append_left _ h.1, ?_⟩
      rintro session' hs' rfl
      rcases hm.active_new hs' with ⟨session, hs, hid⟩ | hact
      · refine hm.final_kept ?_ hs hs' (h.2 session hs hid) hfinal
        intro sid hr
        obtain ⟨q, hq, -⟩ := hl.settles hr
        exact ⟨q, hq⟩
      · -- a session that was active is not activated again
        obtain ⟨q, hq, hqid⟩ := hl.settles (hm.activated_mem hact).1
        refine absurd h.1 ?_
        rw [← hqid]
        exact (hown.glob.pending hq).2
  | env e =>
      obtain ⟨s, ts, he, rfl⟩ := poolStep_env.mp hst
      refine ⟨h.1, fun session hs hid => h.2 session ?_ hid⟩
      exact (envStep_quiet he).1.session ▸ hs

/-- A final file does not change in any later state of the server in which
its session is still in the slot. -/
theorem final_file_stable {X : Externals} {pin : Option String} {verify : Bool} {cap : ℕ}
    {p p' : ServerPool} (hreach : Reach (serverStep X) (.init pin verify cap) p)
    (hrun : Reach (serverStep X) p p') {session session' : UploadSessionV2} {fid : String}
    {file : SessionFileV2} (hs : p.shared.session = some (.active session))
    (hs' : p'.shared.session = some (.active session'))
    (hid : session'.sessionId = session.sessionId)
    (hf : session.files.get? fid = some file) (hfinal : file.status.isFinal = true) :
    session'.files.get? fid = some file := by
  have h0 : FinalAt session.sessionId fid file p := by
    refine ⟨(ownership_reach hreach).glob.active hs, fun session₀ hs₀ _ => ?_⟩
    obtain rfl := SessionStateV2.active.inj (Option.some.inj (hs.symm.trans hs₀))
    exact hf
  have hrun' := hrun.strengthen (J := (ownership X).Holds) fun q hq =>
    ownership_reach (hreach.trans hq)
  have := hrun'.invariant h0 fun m l t hm hok hst => finalAt_step hfinal hok.2 hm hst
  exact this.2 session' hs' hid

theorem start_of_role {t : Task} {ip : PeerIp} {sid fid token : String}
    (h : t.role = .starting ip sid fid token) :
    ∃ clientInfo, t = .upload (.begin clientInfo sid fid token) ∧ clientInfo.ip = ip := by
  cases t with
  | upload pc =>
      cases pc <;> simp [Task.role] at h
      case begin clientInfo _ _ _ =>
        obtain ⟨rfl, rfl, rfl, rfl⟩ := h
        exact ⟨clientInfo, rfl, rfl⟩
  | prepareUpload pc => cases pc <;> simp [Task.role] at h
  | cancel pc => cases pc <;> simp [Task.role] at h
  | cleanup pc => cases pc <;> simp [Task.role] at h
  | answered result =>
      rcases answeredRole_cases result with hr | ⟨_, hr⟩ <;> simp [Task.role, hr] at h
  | _ => simp [Task.role] at h

/-- The upload machine in a state `p`: a file in progress has at most one
owner; no file is started more often than allowed; a file gets in progress
only by the upload request of the session's sender that names the session,
the file and its token; a final file never changes again; and an active
session has a file that is not final. -/
structure UploadMachine (X : Externals) (p : ServerPool) : Prop where
  one_owner : ∀ (i j : ℕ) (t u : Task) (file : String × String), p.tasks[i]? = some t →
    p.tasks[j]? = some u → t.role.file = some file → u.role.file = some file → i = j
  attempts : ∀ sid fid, starts p.log sid fid ≤ maxUploadAttempts
  start : ∀ l p', serverStep X p l = some p' → ∀ sid fid,
    InProgress p'.shared.session sid fid → ¬ InProgress p.shared.session sid fid →
    p'.log = p.log ++ [.uploadStarted sid fid] ∧
      ∃ i a clientInfo token session file, l = .task i a ∧
        p.tasks[i]? = some (.upload (.begin clientInfo sid fid token)) ∧
        p.shared.session = some (.active session) ∧ session.sessionId = sid ∧
        session.senderIp = clientInfo.ip ∧ session.files.get? fid = some file ∧
        file.token = token ∧ file.status = .pending
  final : ∀ p', Reach (serverStep X) p p' → ∀ session session' fid file,
    p.shared.session = some (.active session) →
    p'.shared.session = some (.active session') →
    session'.sessionId = session.sessionId → session.files.get? fid = some file →
    file.status.isFinal = true → session'.files.get? fid = some file
  unfinished : ∀ session, p.shared.session = some (.active session) →
    ∃ fid file, session.files.get? fid = some file ∧ file.status.isFinal = false

theorem inProgress_start {X : Externals} {p p' : ServerPool} {l : ServerLabel}
    (hown : (ownership X).Holds p) (hst : serverStep X p l = some p') {sid fid : String}
    (hin : InProgress p'.shared.session sid fid)
    (hnot : ¬ InProgress p.shared.session sid fid) :
    p'.log = p.log ++ [.uploadStarted sid fid] ∧
      ∃ i a clientInfo token session file, l = .task i a ∧
        p.tasks[i]? = some (.upload (.begin clientInfo sid fid token)) ∧
        p.shared.session = some (.active session) ∧ session.sessionId = sid ∧
        session.senderIp = clientInfo.ip ∧ session.files.get? fid = some file ∧
        file.token = token ∧ file.status = .pending := by
  cases l with
  | task i a =>
      obtain ⟨t, o, ht, ho, rfl⟩ := poolStep_task.mp hst
      rcases (taskStep_move ho).inProgress_new (hown.loc ht).files hin with
        hbefore | ⟨-, hseen, ip, token, st, dto, hr, hb⟩
      · exact absurd hbefore hnot
      · obtain ⟨clientInfo, rfl, rfl⟩ := start_of_role hr
        obtain ⟨session, file, hs, hid, hip, hf, htok, hpend, -, -⟩ := beginUpload_eq_ok.mp hb
        exact ⟨congrArg (p.log ++ ·) hseen, i, a, clientInfo, token, session, file, rfl,
          ht, hs, hid, hip, hf, htok, hpend⟩
  | env e =>
      obtain ⟨s, ts, he, rfl⟩ := poolStep_env.mp hst
      refine absurd ?_ hnot
      rw [← (envStep_quiet he).1.session]
      exact hin

/-- **The per-file upload machine** holds in every state the server reaches,
for every order of uploads, completions, failures and dropped requests. -/
theorem upload_machine {X : Externals} {pin : Option String} {verify : Bool} {cap : ℕ}
    {p : ServerPool} (hreach : Reach (serverStep X) (.init pin verify cap) p) :
    UploadMachine X p := by
  have hp := uploads_reach hreach
  refine ⟨?_, hp.glob.le, ?_, ?_, ?_⟩
  · intro i j t u file ht hu htf huf
    by_contra hij
    exact hp.pair hij ht hu file htf huf
  · intro l p' hst sid fid hin hnot
    exact inProgress_start (ownership_reach hreach) hst hin hnot
  · intro p' hrun session session' fid file hs hs' hid hf hfinal
    exact final_file_stable hreach hrun hs hs' hid hf hfinal
  · intro session hs
    exact isComplete_eq_false_iff.mp (hp.glob.incomplete hs)

/-- A run with an accepted session whose one file is being uploaded. -/
theorem upload_machine_one_upload : ∃ p, Reach (serverStep .unary) Sample.init p ∧
    InProgress p.shared.session "" "file1" ∧ UploadMachine .unary p := by
  obtain ⟨p, hp, hcheck⟩ := exists_of_exec_any (serverStep .unary) Sample.init
    (Sample.prepare 0 ++ [.env .recv,
      .env (.decide 0 (.accept ["file1"])), .task 0 .decision, .task 0 .go,
      .env (.upload Sample.sender [("sessionId", ""), ("fileId", "file1"), ("token", "u")]),
      .task 1 .go, .task 1 .go])
    (fun p => decide (p.shared.session = some (.active ⟨"", Sample.sender.ip,
      .ofList [("file1", ⟨Sample.file "file1", "u", .inProgress, 1⟩)]⟩))) rfl
  exact ⟨p, reach_of_exec hp, ⟨_, _, of_decide_eq_true hcheck, rfl, rfl, rfl⟩,
    upload_machine (reach_of_exec hp)⟩

end FireBoxTransfer

import FireBoxTransfer.Core.ServerV2Ownership

/-!
# Aborted requests: is every occupied slot and file still attended to?

A pending entry and a file in progress are duties: some task has to settle
them, or the receiver answers 409 until it is restarted. The guards hand a
duty to a spawned task when a request future is dropped. They fail at one
place: `PendingSessionGuard::clear` and `UploadGuard::finish` disarm the
guard and only then wait for the lock, so that a future dropped while it
waits there takes the duty with it.
-/

namespace FireBoxTransfer

open TaskPool Runs

/-! ## §1  Duties -/

inductive Duty where
  | entry (sessionId : String)
  | file (sessionId fileId : String)

/-- The duties that the slot gives rise to. -/
def ServerV2.duty (s : ServerV2) : Duty → Prop
  | .entry sid => ∃ p, s.session = some (.pending p) ∧ p.sessionId = sid
  | .file sid fid => InProgress s.session sid fid

/-- The duties a task in this role attends to. -/
def Role.attends (r : Role) : Duty → Prop
  | .entry sid => r.settles = some sid
  | .file sid fid => r.file = some (sid, fid)

/-- **No leak**: a pending session has its handler still running, or the
clean-up that frees the slot is scheduled; a file in progress has its
handler still running, or the clean-up that settles it is scheduled. -/
def NoLeak (p : ServerPool) : Prop :=
  Covered ServerV2.duty (fun t k => t.role.attends k) p

/-- The two awaits at which a handler no longer has an armed guard and has
not settled its duty yet. -/
def Task.disarmed : Task → Bool
  | .prepareUpload (.clear _ _) | .upload (.finish _ _) => true
  | _ => false

/-- The step does not drop a future that waits for the lock inside
`PendingSessionGuard::clear` or `UploadGuard::finish`. -/
def DropsNoDisarmed (p : ServerPool) : ServerLabel → Prop
  | .task i .drop => ∀ t ∈ p.tasks[i]?, t.disarmed = false
  | _ => True

instance (p : ServerPool) : ∀ l, Decidable (DropsNoDisarmed p l)
  | .task i .drop => inferInstanceAs (Decidable (∀ t ∈ p.tasks[i]?, t.disarmed = false))
  | .task _ .go | .task _ (.body _) | .task _ .decision | .task _ .cancelled
  | .task _ (.saved _) | .env _ => .isTrue trivial

/-! ## §2  What one move does to a duty -/

section Moves

variable {X : Externals} {s s' : ServerV2} {r r' : Role} {a : Act} {rs : List Role}
  {seen : List Seen}

/-- A duty that exists after a move existed before, or comes with a claim or
the start of an upload and is attended to by the task that moved. -/
theorem Move.duty_new (h : Move X s r a s' r' rs seen)
    (hfiles : ∀ {ctx files}, r = .accepting ctx files → FreshFiles files) {k : Duty}
    (hk : s'.duty k) : s.duty k ∨ r'.attends k := by
  cases k with
  | entry sid =>
      obtain ⟨p, hp, rfl⟩ := hk
      rcases h.pending_new hp with hp' | hm
      · exact .inl ⟨p, hp', rfl⟩
      · exact .inr (h.claimed_mem hm).2.2.1
  | file sid fid =>
      rcases h.inProgress_new hfiles hk with hin | ⟨hr', -⟩
      · exact .inl hin
      · exact .inr hr'

/-- The task that attends to a duty settles it, goes on attending to it, or
hands it to a task it starts. -/
theorem Move.duty_kept (h : Move X s r a s' r' rs seen) {k : Duty} (hr : r.attends k)
    (hdrop : a = .drop → (∀ ctx, r ≠ .clearing ctx) ∧
      ∀ sid fid result, r ≠ .finishing sid fid result)
    (hk : s'.duty k) : ∃ q ∈ r' :: rs, q.attends k := by
  cases h with
  | rest hidle =>
      cases k with
      | entry sid => exact absurd hr (by simp [Role.attends, Role.settles_of_idle hidle])
      | file sid fid => exact absurd hr (by simp [Role.attends, Role.file_of_idle hidle])
  | hold | refuse | accept | upload | finish =>
      exact ⟨_, List.mem_cons_self, by cases k <;> exact hr⟩
  | abandon hr' =>
      refine ⟨_, List.mem_cons_of_mem _ (List.mem_singleton_self _), ?_⟩
      rcases hr' with ⟨rx, rfl⟩ | ⟨files, rfl⟩ <;> cases k <;> exact hr
  | orphan =>
      exact ⟨_, List.mem_cons_of_mem _ (List.mem_singleton_self _), by
        cases k <;> exact hr⟩
  | clear hr' hs =>
      cases k with
      | entry sid =>
          obtain ⟨p, hp, -⟩ := hk
          exact absurd (hs ▸ hp) clearPendingSession_ne_pending
      | file sid fid => rcases hr' with ⟨ctx, rfl, -⟩ | rfl <;> cases hr
  | activate hs =>
      cases k with
      | entry sid => obtain ⟨p, hp, -⟩ := hk; rw [hs] at hp; cases hp
      | file sid fid => cases hr
  | finalize hr' hs =>
      cases k with
      | entry sid => rcases hr' with rfl | ⟨rfl, -⟩ <;> cases hr
      | file sid fid =>
          have hin : InProgress s'.session sid fid := hk
          rw [hs] at hin
          refine absurd ?_ (finalizeFile_inProgress hin).2
          rcases hr' with rfl | ⟨rfl, -⟩ <;>
            obtain ⟨rfl, rfl⟩ := Prod.mk.inj (Option.some.inj hr) <;> exact ⟨rfl, rfl⟩
  | leak => exact absurd rfl ((hdrop rfl).1 _)
  | leakFile => exact absurd rfl ((hdrop rfl).2 _ _ _)
  | _ => cases k <;> cases hr

end Moves

/-! ## §3  No leak without a drop inside `clear` or `finish` -/

theorem disarmed_of_role {t : Task} (h : t.disarmed = false) :
    (∀ ctx, t.role ≠ .clearing ctx) ∧ ∀ sid fid result, t.role ≠ .finishing sid fid result := by
  cases t with
  | prepareUpload pc => cases pc <;> simp_all [Task.role, Task.disarmed]
  | upload pc => cases pc <;> simp_all [Task.role, Task.disarmed]
  | cancel pc => cases pc <;> simp [Task.role]
  | cleanup pc => cases pc <;> simp [Task.role]
  | answered result =>
      rcases answeredRole_cases result with hr | ⟨sid, hr⟩ <;> simp [Task.role, hr]
  | _ => simp [Task.role]

theorem noLeak_stable (X : Externals) :
    CoverStable ServerV2.duty (fun (t : Task) k => t.role.attends k) (serverMachine X)
      (fun p l => DropsNoDisarmed p l ∧ (ownership X).Holds p) where
  own := by
    rintro p i a t o ⟨hok, hp⟩ ht ho k hk
    have hm := taskStep_move ho
    have hmap : (∃ q ∈ o.task.role :: o.spawned.map Task.role, q.attends k) →
        ∃ u ∈ o.task :: o.spawned, u.role.attends k := by
      rintro ⟨q, hq, hatt⟩
      rw [← List.map_cons, List.mem_map] at hq
      obtain ⟨u, hu, rfl⟩ := hq
      exact ⟨u, hu, hatt⟩
    by_cases hr : t.role.attends k
    · refine .inr (hmap (hm.duty_kept hr ?_ hk))
      rintro rfl
      exact disarmed_of_role (hok t ht)
    · rcases hm.duty_new (hp.loc ht).files hk with hbefore | hatt
      · exact .inl ⟨hbefore, hr⟩
      · exact .inr ⟨_, List.mem_cons_self, hatt⟩
  env := by
    intro p e s ts _ he k hk
    have hs := (envStep_quiet he).1.session
    cases k with
    | entry sid => obtain ⟨q, hq, hsid⟩ := hk; exact ⟨q, hs ▸ hq, hsid⟩
    | file sid fid => exact (show InProgress p.shared.session sid fid from hs ▸ hk)

/-- **No leaked slot or file**, in every run that drops no future inside
`clear` or `finish`. -/
theorem no_leak {X : Externals} {pin : Option String} {verify : Bool} {cap : ℕ}
    {p : ServerPool}
    (hrun : Run (serverStep X) DropsNoDisarmed (.init pin verify cap) p) : NoLeak p := by
  refine (noLeak_stable X).run ?_ (hrun.strengthen fun q hq => ownership_reach hq.reach)
  intro k hk
  cases k with
  | entry sid => obtain ⟨q, hq, -⟩ := hk; cases hq
  | file sid fid => obtain ⟨session, file, hs, -⟩ := hk; cases hs

/-- A sender that disconnects while the application is deciding leaves the
slot to the clean-up of its guard. -/
theorem no_leak_after_disconnect : ∃ p,
    Run (serverStep .unary) DropsNoDisarmed Sample.init p ∧ p.shared.duty (.entry "") ∧
      NoLeak p := by
  obtain ⟨p, hp, hcheck⟩ := exists_of_exec_any (serverStep .unary) Sample.init
    (Sample.prepare 0 ++ [.task 0 .drop])
    (fun p =>
      decide (p.shared.session = some (.pending ⟨"", Sample.sender.ip, 0⟩))) rfl
  have hrun : Run (serverStep .unary) DropsNoDisarmed Sample.init p :=
    run_of_exec hp (by decide)
  exact ⟨p, hrun, ⟨_, of_decide_eq_true hcheck, rfl⟩, no_leak hrun⟩

/-! ## §4  The leaks -/

/-- The application declines the request of task 0, and the sender
disconnects while the handler waits for the lock inside `clear`. -/
def declinedThenDropped : List ServerLabel :=
  Sample.prepare 0 ++
    [.env .recv, .env (.decide 0 .decline), .task 0 .decision, .task 0 .drop]

/-- The same with an accepted request: the upload of task 1 has been saved,
and its sender disconnects while the handler waits for the lock inside
`finish`. -/
def savedThenDropped : List ServerLabel :=
  Sample.prepare 0 ++
    [.env .recv, .env (.decide 0 (.accept ["file1"])), .task 0 .decision, .task 0 .go,
      .env (.upload Sample.sender
        [("sessionId", Externals.unary.uuid 0), ("fileId", "file1"),
          ("token", Externals.unary.uuid 1)]),
      .task 1 .go, .task 1 .go, .task 1 .go, .env .recv, .env (.answerTarget 0 .stream),
      .task 1 .go, .task 1 (.saved .success), .task 1 .drop]

/-- A pool all of whose tasks are at their end attends to nothing. -/
def Task.isDone : Task → Bool
  | .answered _ | .returned _ | .completed | .dropped => true
  | _ => false

theorem not_attends_of_isDone {t : Task} (h : t.isDone = true) (k : Duty) :
    ¬ t.role.attends k := by
  have hr : t.role = .none ∨ ∃ sid, t.role = .granted sid := by
    cases t with
    | answered result => exact answeredRole_cases result
    | returned | completed | dropped => exact .inl rfl
    | _ => cases h
  rcases hr with hr | ⟨sid, hr⟩ <;> rw [hr] <;> cases k <;>
    exact (Option.some_ne_none _).symm

theorem not_noLeak {p : ServerPool} {k : Duty} (hk : p.shared.duty k)
    (hdone : p.tasks.all Task.isDone = true) : ¬ NoLeak p := by
  intro h
  obtain ⟨t, ht, hatt⟩ := h k hk
  exact not_attends_of_isDone (List.all_eq_true.mp hdone t ht) k hatt

/-- After the declined request the slot is pending and no task is left to
free it. -/
theorem declinedThenDropped_leaks : ∃ p, Reach (serverStep .unary) Sample.init p ∧
    (∃ k, p.shared.duty k) ∧ ¬ NoLeak p := by
  obtain ⟨p, hp, hcheck⟩ := exists_of_exec_any (serverStep .unary) Sample.init
    declinedThenDropped
    (fun p => p.tasks.all Task.isDone &&
      decide (p.shared.session = some (.pending ⟨"", Sample.sender.ip, 0⟩))) rfl
  rw [Bool.and_eq_true, decide_eq_true_eq] at hcheck
  have hk : p.shared.duty (.entry "") := ⟨_, hcheck.2, rfl⟩
  exact ⟨p, reach_of_exec hp, ⟨_, hk⟩, not_noLeak hk hcheck.1⟩

/-- After the saved upload the file is in progress and no task is left to
settle it. -/
theorem savedThenDropped_leaks : ∃ p, Reach (serverStep .unary) Sample.init p ∧
    (∃ fid, p.shared.duty (.file "" fid)) ∧ ¬ NoLeak p := by
  obtain ⟨p, hp, hcheck⟩ := exists_of_exec_any (serverStep .unary) Sample.init
    savedThenDropped
    (fun p => p.tasks.all Task.isDone &&
      decide (p.shared.session = some (.active ⟨"", Sample.sender.ip,
        .ofList [("file1", ⟨Sample.file "file1", "u", .inProgress, 1⟩)]⟩))) rfl
  rw [Bool.and_eq_true, decide_eq_true_eq] at hcheck
  have hk : p.shared.duty (.file "" "file1") := ⟨_, _, hcheck.2, rfl, rfl, rfl⟩
  exact ⟨p, reach_of_exec hp, ⟨_, hk⟩, not_noLeak hk hcheck.1⟩

/-- Requests leak when their future is dropped inside `clear` or `finish`. -/
theorem no_leak_fails :
    ¬ ∀ (X : Externals) (pin : Option String) (verify : Bool) (cap : ℕ) (p : ServerPool),
      Reach (serverStep X) (.init pin verify cap) p → NoLeak p := by
  intro h
  obtain ⟨p, hp, -, hleak⟩ := declinedThenDropped_leaks
  exact hleak (h .unary none true 16 p hp)

end FireBoxTransfer

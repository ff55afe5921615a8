import FireBoxTransfer.Bridge.Decisions

/-!
# Where the answers of the stack come from

An answer that is under way was given by the application, and a session gets
active only by an accepting answer that was sent on its channel. So what the
application never accepted is never activated, and nothing of it is written.
-/

namespace FireBoxTransfer

open TaskPool Runs

/-! ## §1  Answers under way -/

/-- The answer is a message to the isolate, a call of the bridge or was sent
on a decision channel. -/
def Stack.UnderWay (p : Stack) (a : Answer) : Prop :=
  .prepareUploadDecision a ∈ p.isolate.tasks ∨ .respondPrepareUpload a ∈ p.bridge.calls ∨
    ∃ tx, (tx, a) ∈ p.answered

/-- No answer is under way in `q` that is not in `p`. -/
structure AnswersFrom (p q : Stack) : Prop where
  tasks : ∀ a, .prepareUploadDecision a ∈ q.isolate.tasks →
    .prepareUploadDecision a ∈ p.isolate.tasks
  calls : ∀ a, .respondPrepareUpload a ∈ q.bridge.calls →
    .respondPrepareUpload a ∈ p.bridge.calls
  answered : q.answered = p.answered

section UnderWay

variable {X : Externals} {p p' q r : Stack}

theorem AnswersFrom.refl (p : Stack) : AnswersFrom p p :=
  ⟨fun _ h => h, fun _ h => h, rfl⟩

theorem AnswersFrom.trans (h : AnswersFrom p q) (h' : AnswersFrom q r) :
    AnswersFrom p r :=
  ⟨fun a ha => h.tasks a (h'.tasks a ha), fun a ha => h.calls a (h'.calls a ha),
    h'.answered.trans h.answered⟩

theorem AnswersFrom.underWay (h : AnswersFrom p q) {a : Answer} (ha : q.UnderWay a) :
    p.UnderWay a := by
  rcases ha with ha | ha | ⟨tx, ha⟩
  · exact .inl (h.tasks a ha)
  · exact .inr (.inl (h.calls a ha))
  · exact .inr (.inr ⟨tx, h.answered ▸ ha⟩)

theorem use_answers (X : Externals) (p : Stack) (e : Env) : AnswersFrom p (p.use X e) := by
  rw [use_eq]
  exact ⟨fun _ h => h, fun _ h => h, rfl⟩

theorem dropUploads_answers (X : Externals) (p : Stack) (f : String × String → Bool) :
    AnswersFrom p (p.dropUploads X f) := by
  unfold Stack.dropUploads
  dsimp only
  rw [dropTargets_eq]
  exact ⟨fun _ h => h, fun _ h => h, rfl⟩

theorem store_answers (X : Externals) (p : Stack) (event : ServerEventV2) :
    AnswersFrom p (p.store X event) := by
  cases event with
  | prepareUpload sid ip info cert files tx =>
      cases hp : p.bridge.pendingDecision with
      | none =>
          simp only [Stack.store, hp]
          exact ⟨fun _ h => h, fun _ h => h, rfl⟩
      | some pending =>
          simp only [Stack.store, hp]
          have hu := use_answers X p (.dropDecision pending.2)
          exact ⟨hu.tasks, hu.calls, hu.answered⟩
  | fileUpload sid fid file tx =>
      cases hu : p.bridge.pendingUploads.get? (sid, fid) with
      | none =>
          simp only [Stack.store, hu]
          exact ⟨fun _ h => h, fun _ h => h, rfl⟩
      | some old =>
          simp only [Stack.store, hu]
          have hu := use_answers X p (.dropTarget old)
          exact ⟨hu.tasks, hu.calls, hu.answered⟩
  | sessionEnd sid reason => exact dropUploads_answers X p _
  | prepareUploadAborted sid =>
      cases hp : p.bridge.pendingDecision with
      | none =>
          simp only [Stack.store, hp]
          exact .refl p
      | some pending =>
          simp only [Stack.store, hp]
          split_ifs
          · have hu := use_answers X p (.dropDecision pending.2)
            exact ⟨hu.tasks, hu.calls, hu.answered⟩
          · exact .refl p
  | register | cancelReceived => exact .refl p

theorem listen_answers (h : p.listen X = some p') : AnswersFrom p p' := by
  unfold Stack.listen at h
  split at h
  · split at h
    · cases h
    · obtain rfl := Option.some.inj h
      have hu := use_answers X p .recv
      exact ⟨hu.tasks, hu.calls, hu.answered⟩
  · rename_i event _
    obtain rfl := Option.some.inj h
    have hs := store_answers X p event
    exact ⟨hs.tasks, hs.calls, hs.answered⟩
  · obtain rfl := Option.some.inj h
    exact ⟨fun _ h => h, fun _ h => h, rfl⟩

theorem endSession_answers (p : Stack) (sid : String) : AnswersFrom p (p.endSession sid) := by
  unfold Stack.endSession
  split_ifs <;> exact ⟨fun _ h => h, fun _ h => h, rfl⟩

theorem isolateEvent_answers (h : p.isolateEvent = some p') : AnswersFrom p p' := by
  unfold Stack.isolateEvent at h
  split at h
  · cases h
  · rename_i event sink _
    obtain rfl := Option.some.inj h
    cases event with
    | fileUpload sid fid file =>
        simp only [Stack.onEvent]
        split
        · refine ⟨fun _ h => h, fun a h => ?_, rfl⟩
          simpa [Stack.call] using h
        · exact ⟨fun _ h => h, fun _ h => h, rfl⟩
    | sessionEnd sid reason =>
        have he := endSession_answers { p with bridge := { p.bridge with sink } } sid
        exact ⟨he.tasks, he.calls, he.answered⟩
    | _ => exact ⟨fun _ h => h, fun _ h => h, rfl⟩

/-- The isolate turns the message of a decision into a call. -/
theorem isolateTask_underWay (h : p.isolateTask = some p') {a : Answer}
    (ha : p'.UnderWay a) : p.UnderWay a := by
  unfold Stack.isolateTask at h
  split at h
  · cases h
  · rename_i task tasks htasks
    obtain rfl := Option.some.inj h
    have htail : AnswersFrom p { p with isolate := { p.isolate with tasks } } := by
      refine ⟨fun a h => ?_, fun _ h => h, rfl⟩
      rw [htasks]
      exact List.mem_cons_of_mem _ h
    cases task with
    | prepareUploadDecision answer =>
        rcases ha with ha | ha | ha
        · exact .inl (htail.tasks a ha)
        · rcases List.mem_append.mp ha with ha | ha
          · exact .inr (.inl ha)
          · cases List.mem_singleton.mp ha
            refine .inl ?_
            rw [htasks]
            exact List.mem_cons_self
        · exact .inr (.inr ha)
    | cancelSession sid =>
        apply htail.underWay
        apply (endSession_answers _ sid).underWay
        rcases ha with ha | ha | ha
        · exact .inl ha
        · refine .inr (.inl ?_)
          simpa [Stack.onTask, Stack.call] using ha
        · exact .inr (.inr ha)

theorem endCall_answers (p : Stack) (k : ℕ) : AnswersFrom p (p.endCall k) :=
  ⟨fun _ h => h, fun _ h => List.mem_of_mem_eraseIdx h, rfl⟩

/-- A call of the bridge sends its own answer. -/
theorem runCall_underWay {k : ℕ} (h : p.runCall X k = some p') {a : Answer}
    (ha : p'.UnderWay a) : p.UnderWay a := by
  unfold Stack.runCall at h
  split at h
  · cases h
  · rename_i answer hcall
    obtain rfl := Option.some.inj h
    cases hp : p.bridge.pendingDecision with
    | none =>
        have hp' : (p.endCall k).bridge.pendingDecision = none := hp
        simp only [Stack.respond, hp'] at ha
        exact (endCall_answers p k).underWay ha
    | some pending =>
        rw [respond_some hp] at ha
        have hu := (endCall_answers p k).trans
          (use_answers X (p.endCall k) (.decide pending.2 answer.decision))
        rcases ha with ha | ha | ⟨tx, ha⟩
        · exact .inl (hu.tasks a ha)
        · exact .inr (.inl ((endCall_answers p k).calls a ha))
        · rcases List.mem_append.mp ha with ha | ha
          · exact .inr (.inr ⟨tx, ha⟩)
          · cases List.mem_singleton.mp ha
            exact .inr (.inl (List.mem_of_getElem? hcall))
  · obtain rfl := Option.some.inj h
    apply AnswersFrom.underWay _ ha
    refine AnswersFrom.trans ?_ (use_answers X _ _)
    refine ⟨fun _ h => h, fun a h => ?_, rfl⟩
    rcases List.mem_or_eq_of_mem_set h with h | h
    · exact h
    · cases h
  · split at h
    · obtain rfl := Option.some.inj h
      exact ((endCall_answers p k).trans (dropUploads_answers X _ _)).underWay ha
    · cases h

theorem runUpload_answers {k : ℕ} {u : FileUpload} {ph : UploadPhase} {a : UploadAct}
    (h : p.runUpload X k u ph a = some p') : AnswersFrom p p' := by
  unfold Stack.runUpload at h
  split at h
  · obtain rfl := Option.some.inj h
    exact ⟨fun _ h => h, fun _ h => h, rfl⟩
  · split at h
    · obtain rfl := Option.some.inj h
      exact ⟨fun _ h => h, fun _ h => h, rfl⟩
    · obtain rfl := Option.some.inj h
      refine AnswersFrom.trans ?_ (use_answers X _ _)
      exact ⟨fun _ h => h, fun _ h => h, rfl⟩
  · obtain rfl := Option.some.inj h
    have hd := dropUploads_answers X (p.endUpload k)
      fun key => key = (u.sessionId, u.fileId)
    exact ⟨hd.tasks, hd.calls, hd.answered⟩
  · obtain rfl := Option.some.inj h
    exact ⟨fun _ h => h, fun _ h => h, rfl⟩
  · cases h

/-- **Every answer under way was given by the application.** -/
theorem stackStep_underWay {l : StackLabel} (h : stackStep X p l = some p') {a : Answer}
    (ha : p'.UnderWay a) : p.UnderWay a ∨ l = .answer a := by
  cases l with
  | core l =>
      simp only [stackStep] at h
      split at h
      · obtain ⟨core, -, rfl⟩ := Option.map_eq_some_iff.mp h
        exact .inl ha
      · cases h
  | listen => exact .inl ((listen_answers h).underWay ha)
  | event => exact .inl ((isolateEvent_answers h).underWay ha)
  | task => exact .inl (isolateTask_underWay h ha)
  | call k => exact .inl (runCall_underWay h ha)
  | upload k act =>
      obtain ⟨u, -, hu⟩ := Option.bind_eq_some_iff.mp h
      exact .inl ((runUpload_answers hu).underWay ha)
  | answer answer =>
      obtain rfl := Option.some.inj h
      rcases ha with ha | ha | ha
      · rcases List.mem_append.mp ha with ha | ha
        · exact .inl (.inl ha)
        · cases List.mem_singleton.mp ha
          exact .inr rfl
      · exact .inl (.inr (.inl ha))
      · exact .inl (.inr (.inr ha))
  | cancelSession sid =>
      obtain rfl := Option.some.inj h
      left
      apply AnswersFrom.underWay _ ha
      refine ⟨fun a h => ?_, fun _ h => h, rfl⟩
      simpa [Stack.send] using h
  | take =>
      obtain ⟨r, hr, rfl⟩ := Option.map_eq_some_iff.mp h
      unfold Stack.take at hr
      split at hr
      · cases hr
      · obtain rfl := Option.some.inj hr
        exact .inl ha

end UnderWay

/-! ## §2  Activations -/

section Moves

variable {X : Externals} {s s' : ServerV2} {r r' : Role} {a : Act} {rs : List Role}
  {seen : List Seen}

theorem Move.activated_accepting (h : Move X s r a s' r' rs seen) {sid : String}
    (hm : .activated sid ∈ seen) : ∃ ctx files, r = .accepting ctx files ∧
      ctx.sessionId = sid := by
  cases h <;> simp at hm
  case activate ctx files hs hts hmint => exact ⟨ctx, files, rfl, hm.symm⟩

theorem Move.started_active (h : Move X s r a s' r' rs seen) {sid fid : String}
    (hm : .uploadStarted sid fid ∈ seen) :
    ∃ session, s.session = some (.active session) ∧ session.sessionId = sid := by
  cases h <;> simp at hm
  case start hb hs hts hmint =>
    obtain ⟨session, file, hsess, hid, -⟩ := beginUpload_eq_ok.mp hb
    exact ⟨session, hsess, hid.trans hm.1.symm⟩

end Moves

theorem acceptedFiles_nil (X : Externals) (minted : ℕ) (files : AssocMap String FileDto) :
    (acceptedFiles X minted files []).isEmpty = true := by
  simp [acceptedFiles, AssocMap.isEmpty, AssocMap.mapIdx, AssocMap.filter]

/-- An accepting answer for the session, with at least one file, was sent. -/
def Accepts (answered : List (ℕ × Answer)) (sid : String) : Prop :=
  ∃ tx config, (tx, Answer.accept config) ∈ answered ∧ config.sessionId = sid ∧
    config.fileNameMap.isEmpty = false

/-- A decision that accepts a file comes from an accepting answer with a
file. -/
theorem accept_of_decision {X : Externals} {minted : ℕ} {files : AssocMap String FileDto}
    {answer : Answer} {ids : List String} (hd : answer.decision = .accept ids)
    (hne : (acceptedFiles X minted files ids).isEmpty = false) :
    ∃ config, answer = .accept config ∧ config.fileNameMap.isEmpty = false := by
  cases answer with
  | decline sid => cases hd
  | accept config =>
      refine ⟨config, rfl, ?_⟩
      cases hempty : config.fileNameMap.isEmpty with
      | false => rfl
      | true =>
          have hkeys : ids = [] := by
            cases hd
            simpa [AssocMap.keys, AssocMap.isEmpty] using hempty
          rw [hkeys, acceptedFiles_nil] at hne
          cases hne

/-- What is being activated, and what was, was accepted. -/
structure Granting (answered : List (ℕ × Answer)) (c : ServerPool) : Prop where
  accepting : ∀ t ∈ c.tasks, ∀ ctx files, t.role = .accepting ctx files →
    Accepts answered ctx.sessionId
  activated : ∀ sid, .activated sid ∈ c.log → Accepts answered sid

theorem Granting.mono {answered answered' : List (ℕ × Answer)} {c : ServerPool}
    (h : Granting answered c) (hsub : answered ⊆ answered') : Granting answered' c := by
  have hacc : ∀ sid, Accepts answered sid → Accepts answered' sid := by
    rintro sid ⟨tx, config, hm, hrest⟩
    exact ⟨tx, config, hsub hm, hrest⟩
  exact ⟨fun t ht ctx files hr => hacc _ (h.accepting t ht ctx files hr),
    fun sid hm => hacc _ (h.activated sid hm)⟩

section Granting

variable {X : Externals} {c c' : ServerPool} {answered : List (ℕ × Answer)}

/-- The decisions of the server are the answers sent, each on the channel of
its own session. -/
structure Answered (answered : List (ℕ × Answer)) (c : ServerPool) : Prop where
  named : ∀ tx a, (tx, a) ∈ answered → Named c a.session tx
  sent : ∀ (tx : ℕ) (d : PrepareUploadDecisionV2),
    c.shared.decisions[tx]? = some (.sent d) → ∃ a, (tx, a) ∈ answered ∧ a.decision = d

theorem Granting.step (h : Granting answered c) (hans : Answered answered c)
    {l : ServerLabel} (hst : serverStep X c l = some c') : Granting answered c' := by
  cases l with
  | task i act =>
      obtain ⟨t, o, ht, ho, rfl⟩ := poolStep_task.mp hst
      have htm := List.mem_of_getElem? ht
      constructor
      · intro u hu ctx files hr
        rcases mem_advance_new hu with hu | hu
        · have hrole : Role.accepting ctx files ∈ o.task.role :: o.spawned.map Task.role :=
            hr ▸ mem_roles hu
          obtain ⟨-, rx, ids, hhold, -, hdec, hne⟩ := (taskStep_move ho).accepting_from hrole
          obtain ⟨answer, hm, hd⟩ := hans.sent rx _ hdec
          obtain ⟨config, rfl, hmap⟩ := accept_of_decision hd hne
          have hsid := (hans.named rx _ hm).2 t htm ctx hhold
          exact ⟨rx, config, hm, hsid.symm, hmap⟩
        · exact h.accepting u hu ctx files hr
      · intro sid hm
        rcases List.mem_append.mp hm with hm | hm
        · exact h.activated sid hm
        · obtain ⟨ctx, files, hr, rfl⟩ := (taskStep_move ho).activated_accepting hm
          exact h.accepting t htm ctx files hr
  | env e =>
      obtain ⟨s, ts, he, rfl⟩ := poolStep_env.mp hst
      refine ⟨fun u hu ctx files hr => ?_, h.activated⟩
      rcases List.mem_append.mp hu with hu | hu
      · exact h.accepting u hu ctx files hr
      · have hidle := (envStep_quiet he).2 u hu
        rw [hr] at hidle
        cases hidle

theorem Granting.run {pin : Option String} {verify : Bool} {cap : ℕ}
    (hreach : Reach (serverStep X) (.init pin verify cap) c) (h : Granting answered c)
    (hans : Answered answered c) (hrun : Run (serverStep X) Undecided c c') :
    Granting answered c' := by
  induction hrun with
  | refl => exact h
  | snoc hrun _ hst ih =>
      obtain ⟨hnamed, hsent⟩ := undecided_run hreach hrun
      apply ih.step _ hst
      exact ⟨fun tx a ha => hnamed _ _ (hans.named tx a ha),
        fun tx d hs => hans.sent tx d (hsent tx d hs)⟩

end Granting

/-- **A session gets active only by an accepting answer for it.** -/
theorem activated_accepts {X : Externals} {pin : Option String} {verify : Bool} {cap : ℕ}
    {p : Stack} (h : Run (stackStep X) InTime (.init pin verify cap) p) :
    Granting p.answered p.core := by
  have hrouted := h.strengthen (J := Routed X pin verify cap) fun _ => routed_run
  apply hrouted.invariant
  · refine ⟨fun t ht => ?_, fun sid hm => ?_⟩
    · cases ht
    · cases hm
  · rintro m l t hm ⟨-, hr⟩ hst
    have hans : Answered m.answered m.core := ⟨hr.answered, hr.sent⟩
    rcases stackStep_routes hst with ⟨k, a, rfl, -, rfl⟩ | hroutes
    · cases hp : m.bridge.pendingDecision with
      | none =>
          have hp' : (m.endCall k).bridge.pendingDecision = none := hp
          simp only [Stack.respond, hp']
          exact hm
      | some pending =>
          rw [respond_some hp]
          apply Granting.mono _ (List.subset_append_left _ _)
          show Granting m.answered ((m.endCall k).use X _).core
          unfold Stack.use
          cases hcore : serverStep X (m.endCall k).core
              (.env (.decide pending.2 a.decision)) with
          | none => exact hm
          | some core => exact hm.step hans hcore
    · rw [hroutes.answered]
      exact hm.run hr.core hans hroutes.run

/-! ## §3  Uploads -/

/-- An upload starts in a session that was activated. -/
theorem uploadStarted_activated {X : Externals} {pin : Option String} {verify : Bool}
    {cap : ℕ} {c : ServerPool} (h : Reach (serverStep X) (.init pin verify cap) c) :
    ∀ sid fid, .uploadStarted sid fid ∈ c.log → .activated sid ∈ c.log := by
  have howned := h.strengthen (J := (ownership X).Holds) fun _ => ownership_reach
  apply howned.invariant
  · intro sid fid hm
    cases hm
  · rintro m l t ih ⟨-, hown⟩ hst sid fid hm
    cases l with
    | task i a =>
        obtain ⟨u, o, hu, ho, rfl⟩ := poolStep_task.mp hst
        rcases List.mem_append.mp hm with hm | hm
        · exact List.mem_append_left _ (ih sid fid hm)
        · obtain ⟨session, hs, rfl⟩ := (taskStep_move ho).started_active hm
          exact List.mem_append_left _ (hown.glob.active hs)
    | env e =>
        obtain ⟨s, ts, -, rfl⟩ := poolStep_env.mp hst
        exact ih sid fid hm

end FireBoxTransfer

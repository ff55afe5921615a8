import FireBoxTransfer.Bridge.Channels

/-!
# Whose decision an answer becomes

`respond_prepare_upload` takes no session identifier: it resolves whatever
decision is pending when it gets the lock. The event that offered that
decision may be younger than the request the application answered.
-/

namespace FireBoxTransfer

open TaskPool Runs

/-! ## §1  What one step of the stack does -/

/-- The server decides nothing by itself. -/
def Undecided (_ : ServerPool) (l : ServerLabel) : Prop :=
  ∀ tx d, l ≠ .env (.decide tx d)

section Frames

variable {X : Externals} {p p' : Stack}

theorem use_eq (X : Externals) (p : Stack) (e : Env) :
    p.use X e = { p with core := (p.use X e).core } := by
  unfold Stack.use
  cases serverStep X p.core (.env e) <;> rfl

theorem use_run {e : Env} (he : ∀ tx d, e ≠ .decide tx d) :
    Run (serverStep X) Undecided p.core (p.use X e).core := by
  unfold Stack.use
  cases hst : serverStep X p.core (.env e) with
  | none => exact .refl
  | some core =>
      apply Run.single _ hst
      intro tx d h
      exact he tx d (Label.env.inj h)

theorem dropTargets_eq (X : Externals) (p : Stack) (txs : List ℕ) :
    p.dropTargets X txs = { p with core := (p.dropTargets X txs).core } := by
  induction txs generalizing p with
  | nil => rfl
  | cons tx txs ih =>
      rw [Stack.dropTargets, ih, use_eq]

theorem dropTargets_run (txs : List ℕ) :
    Run (serverStep X) Undecided p.core (p.dropTargets X txs).core := by
  induction txs generalizing p with
  | nil => exact .refl
  | cons tx txs ih => exact (use_run (by simp)).trans ih

/-- The parts of the stack through which a decision channel travels stay as
they are. -/
structure SameRoutes (p p' : Stack) : Prop where
  loop : p'.bridge.loop = p.bridge.loop
  pendingDecision : p'.bridge.pendingDecision = p.bridge.pendingDecision
  answered : p'.answered = p.answered

theorem use_routes (X : Externals) (p : Stack) (e : Env) : SameRoutes p (p.use X e) := by
  rw [use_eq]
  exact ⟨rfl, rfl, rfl⟩

theorem dropUploads_routes (X : Externals) (p : Stack) (q : String × String → Bool) :
    SameRoutes p (p.dropUploads X q) := by
  unfold Stack.dropUploads
  dsimp only
  rw [dropTargets_eq]
  exact ⟨rfl, rfl, rfl⟩

theorem dropUploads_run (q : String × String → Bool) :
    Run (serverStep X) Undecided p.core (p.dropUploads X q).core :=
  dropTargets_run (p := { p with bridge := { p.bridge with
    pendingUploads := p.bridge.pendingUploads.filter fun key _ => !q key } }) _

end Frames

/-- What a step other than a response does to the decisions under way: the
server goes on without a decision, the pending decision is kept, dropped or
taken over from the event in hand, and the event in hand was in the queue. -/
structure Routes (X : Externals) (p p' : Stack) : Prop where
  run : Run (serverStep X) Undecided p.core p'.core
  answered : p'.answered = p.answered
  pending : ∀ sid tx, p'.bridge.pendingDecision = some (sid, tx) →
    p.bridge.pendingDecision = some (sid, tx) ∨
      ∃ event, p.bridge.loop = .handle event ∧ event.responder = some (sid, tx)
  loop : ∀ event, p'.bridge.loop = .handle event →
    p.bridge.loop = .handle event ∨ event ∈ p.core.shared.events.queue

section Routes

variable {X : Externals} {p p' : Stack}

theorem SameRoutes.routes (h : SameRoutes p p')
    (hrun : Run (serverStep X) Undecided p.core p'.core) : Routes X p p' where
  run := hrun
  answered := h.answered
  pending _ _ hp := .inl (h.pendingDecision ▸ hp)
  loop _ hl := .inl (h.loop ▸ hl)

/-- Another channel or function of the server is used, in a state with the
same routes. -/
theorem SameRoutes.use {q : Stack} (h : SameRoutes p q) (hcore : q.core = p.core) {e : Env}
    (he : ∀ tx d, e ≠ .decide tx d) : Routes X p (q.use X e) := by
  have hs := use_routes X q e
  refine SameRoutes.routes ⟨?_, ?_, ?_⟩ ?_
  · exact hs.loop.trans h.loop
  · exact hs.pendingDecision.trans h.pendingDecision
  · exact hs.answered.trans h.answered
  · rw [← hcore]
    exact use_run he

theorem SameRoutes.dropUploads {q : Stack} (h : SameRoutes p q) (hcore : q.core = p.core)
    (f : String × String → Bool) : Routes X p (q.dropUploads X f) := by
  have hs := dropUploads_routes X q f
  refine SameRoutes.routes ⟨?_, ?_, ?_⟩ ?_
  · exact hs.loop.trans h.loop
  · exact hs.pendingDecision.trans h.pendingDecision
  · exact hs.answered.trans h.answered
  · rw [← hcore]
    exact dropUploads_run f

theorem store_routes {event : ServerEventV2} (hl : p.bridge.loop = .handle event) :
    Routes X p ((p.store X event).setLoop (.emit event.toRs)) := by
  -- whatever is stored, the loop goes on to hand the event on
  have of_routes : ∀ {q : Stack}, Run (serverStep X) Undecided p.core q.core →
      q.answered = p.answered →
      (q.bridge.pendingDecision = p.bridge.pendingDecision ∨
        q.bridge.pendingDecision = none ∨ q.bridge.pendingDecision = event.responder) →
      Routes X p (q.setLoop (.emit event.toRs)) := by
    intro q hrun ha hp
    refine ⟨hrun, ha, fun sid tx hq => ?_, fun event' hl' => by cases hl'⟩
    have hq : q.bridge.pendingDecision = some (sid, tx) := hq
    rcases hp with hp | hp | hp
    · exact .inl (hp ▸ hq)
    · rw [hp] at hq
      cases hq
    · exact .inr ⟨event, hl, hp ▸ hq⟩
  cases event with
  | prepareUpload sid ip info cert files tx =>
      cases hp : p.bridge.pendingDecision with
      | none =>
          simp only [Stack.store, hp]
          exact of_routes .refl rfl (.inr (.inr rfl))
      | some pending =>
          simp only [Stack.store, hp]
          exact of_routes (use_run (by simp)) (use_routes X p _).answered (.inr (.inr rfl))
  | fileUpload sid fid file tx =>
      cases hu : p.bridge.pendingUploads.get? (sid, fid) with
      | none =>
          simp only [Stack.store, hu]
          exact of_routes .refl rfl (.inl rfl)
      | some old =>
          simp only [Stack.store, hu]
          exact of_routes (use_run (by simp)) (use_routes X p _).answered
            (.inl (use_routes X p _).pendingDecision)
  | sessionEnd sid reason =>
      exact of_routes (dropUploads_run _) (dropUploads_routes X p _).answered
        (.inl (dropUploads_routes X p _).pendingDecision)
  | prepareUploadAborted sid =>
      cases hp : p.bridge.pendingDecision with
      | none =>
          simp only [Stack.store, hp]
          exact of_routes .refl rfl (.inl rfl)
      | some pending =>
          simp only [Stack.store, hp]
          split_ifs
          · exact of_routes (use_run (by simp)) (use_routes X p _).answered (.inr (.inl rfl))
          · exact of_routes .refl rfl (.inl rfl)
  | register | cancelReceived => exact of_routes .refl rfl (.inl rfl)

theorem listen_routes (h : p.listen X = some p') : Routes X p p' := by
  unfold Stack.listen at h
  split at h
  · split at h
    · cases h
    · rename_i event queue hq
      obtain rfl := Option.some.inj h
      refine ⟨use_run (by simp), ?_, ?_, ?_⟩
      · exact (use_routes X p .recv).answered
      · intro sid tx hp
        exact .inl ((use_routes X p .recv).pendingDecision ▸ hp)
      · intro event' hl
        cases hl
        rw [hq]
        exact .inr List.mem_cons_self
  · rename_i event hl
    obtain rfl := Option.some.inj h
    exact store_routes hl
  · obtain rfl := Option.some.inj h
    refine ⟨.refl, rfl, fun sid tx hp => .inl hp, fun event hl => ?_⟩
    cases hl

theorem endSession_routes (p : Stack) (sid : String) :
    SameRoutes p (p.endSession sid) ∧ (p.endSession sid).core = p.core := by
  unfold Stack.endSession
  split_ifs <;> exact ⟨⟨rfl, rfl, rfl⟩, rfl⟩

theorem isolateEvent_routes (h : p.isolateEvent = some p') : Routes X p p' := by
  unfold Stack.isolateEvent at h
  split at h
  · cases h
  · rename_i event sink _
    obtain rfl := Option.some.inj h
    cases event with
    | fileUpload sid fid file =>
        simp only [Stack.onEvent]
        split <;> exact SameRoutes.routes ⟨rfl, rfl, rfl⟩ .refl
    | sessionEnd sid reason =>
        obtain ⟨hs, hcore⟩ :=
          endSession_routes { p with bridge := { p.bridge with sink } } sid
        exact SameRoutes.routes ⟨hs.loop, hs.pendingDecision, hs.answered⟩
          (by rw [Stack.onEvent, Stack.emit, hcore]; exact .refl)
    | _ => exact SameRoutes.routes ⟨rfl, rfl, rfl⟩ .refl

theorem isolateTask_routes (h : p.isolateTask = some p') : Routes X p p' := by
  unfold Stack.isolateTask at h
  split at h
  · cases h
  · rename_i task tasks _
    obtain rfl := Option.some.inj h
    cases task with
    | prepareUploadDecision answer => exact SameRoutes.routes ⟨rfl, rfl, rfl⟩ .refl
    | cancelSession sid =>
        obtain ⟨hs, hcore⟩ :=
          endSession_routes { p with isolate := { p.isolate with tasks } } sid
        exact SameRoutes.routes ⟨hs.loop, hs.pendingDecision, hs.answered⟩
          (by rw [Stack.onTask, Stack.call, hcore]; exact .refl)

theorem runCall_routes {k : ℕ} (h : p.runCall X k = some p') :
    (∃ a, p.bridge.calls[k]? = some (.respondPrepareUpload a) ∧
      p' = (p.endCall k).respond X a) ∨ Routes X p p' := by
  unfold Stack.runCall at h
  split at h
  · cases h
  · rename_i a ha
    obtain rfl := Option.some.inj h
    exact .inl ⟨a, ha, rfl⟩
  · right
    obtain rfl := Option.some.inj h
    refine SameRoutes.use ?_ ?_ ?_
    · exact ⟨rfl, rfl, rfl⟩
    · rfl
    · simp
  · right
    split at h
    · obtain rfl := Option.some.inj h
      have hsame : SameRoutes p (p.endCall k) := ⟨rfl, rfl, rfl⟩
      exact hsame.dropUploads rfl _
    · cases h

theorem runUpload_routes {k : ℕ} {u : FileUpload} {ph : UploadPhase} {a : UploadAct}
    (h : p.runUpload X k u ph a = some p') : Routes X p p' := by
  unfold Stack.runUpload at h
  split at h
  · obtain rfl := Option.some.inj h
    exact SameRoutes.routes ⟨rfl, rfl, rfl⟩ .refl
  · split at h
    · obtain rfl := Option.some.inj h
      exact SameRoutes.routes ⟨rfl, rfl, rfl⟩ .refl
    · obtain rfl := Option.some.inj h
      refine SameRoutes.use ?_ ?_ ?_
      · exact ⟨rfl, rfl, rfl⟩
      · rfl
      · simp
  · obtain rfl := Option.some.inj h
    have hsame : SameRoutes p (p.endUpload k) := ⟨rfl, rfl, rfl⟩
    have hr := hsame.dropUploads (X := X) rfl fun key => key = (u.sessionId, u.fileId)
    exact ⟨hr.run, hr.answered, hr.pending, hr.loop⟩
  · obtain rfl := Option.some.inj h
    exact SameRoutes.routes ⟨rfl, rfl, rfl⟩ .refl
  · cases h

/-- **What one step does to the decisions under way.** -/
theorem stackStep_routes {l : StackLabel} (h : stackStep X p l = some p') :
    (∃ k a, l = .call k ∧ p.bridge.calls[k]? = some (.respondPrepareUpload a) ∧
      p' = (p.endCall k).respond X a) ∨ Routes X p p' := by
  cases l with
  | core l =>
      right
      simp only [stackStep] at h
      split at h
      · rename_i hext
        obtain ⟨core, hst, rfl⟩ := Option.map_eq_some_iff.mp h
        refine SameRoutes.routes ⟨rfl, rfl, rfl⟩ (Run.single ?_ hst)
        rintro tx d rfl
        cases hext
      · cases h
  | listen => exact .inr (listen_routes h)
  | event => exact .inr (isolateEvent_routes h)
  | task => exact .inr (isolateTask_routes h)
  | call k =>
      rcases runCall_routes h with ⟨a, ha, rfl⟩ | hr
      · exact .inl ⟨k, a, rfl, ha, rfl⟩
      · exact .inr hr
  | upload k a =>
      obtain ⟨u, -, hu⟩ := Option.bind_eq_some_iff.mp h
      exact .inr (runUpload_routes hu)
  | answer a | cancelSession sid =>
      obtain rfl := Option.some.inj h
      exact .inr (SameRoutes.routes ⟨rfl, rfl, rfl⟩ .refl)
  | take =>
      right
      obtain ⟨r, hr, rfl⟩ := Option.map_eq_some_iff.mp h
      unfold Stack.take at hr
      split at hr
      · cases hr
      · obtain rfl := Option.some.inj hr
        exact SameRoutes.routes ⟨rfl, rfl, rfl⟩ .refl

end Routes

/-! ## §2  The routing invariant -/

section Server

variable {X : Externals} {c c' : ServerPool}

theorem envStep_sent {s s' : ServerV2} {e : Env} {ts : List Task}
    (h : envStep s e = some (s', ts)) (he : ∀ tx d, e ≠ .decide tx d) {tx : ℕ}
    {d : PrepareUploadDecisionV2} (hs : s'.decisions[tx]? = some (.sent d)) :
    s.decisions[tx]? = some (.sent d) := by
  cases envStep_cases h with
  | decide => exact absurd rfl (he _ _)
  | @dropDecision tx' decisions hr =>
      obtain ⟨-, rfl⟩ := resolve_eq_some.mp hr
      have hset : (s.decisions.set tx' .dropped)[tx]? = some (.sent d) := hs
      rw [List.getElem?_set] at hset
      split_ifs at hset
      · cases hset
      · exact hset
  | _ => exact hs

/-- A decision is sent by the application only. -/
theorem serverStep_sent (hc : Channelled X c) {l : ServerLabel}
    (hst : serverStep X c l = some c') (hl : Undecided c l) {tx : ℕ}
    {d : PrepareUploadDecisionV2} (hs : c'.shared.decisions[tx]? = some (.sent d)) :
    c.shared.decisions[tx]? = some (.sent d) := by
  cases l with
  | task i a =>
      obtain ⟨t, o, ht, ho, rfl⟩ := poolStep_task.mp hst
      have hs : o.shared.decisions[tx]? = some (.sent d) := hs
      have hch := taskStep_channels ho (hc.plain t (List.mem_of_getElem? ht))
      rcases hch.decisions with hd | hd
      · rwa [hd] at hs
      · rw [hd, List.getElem?_append] at hs
        split_ifs at hs
        · exact hs
        · rw [List.getElem?_singleton] at hs
          split_ifs at hs
          cases hs
  | env e =>
      obtain ⟨s, ts, he, rfl⟩ := poolStep_env.mp hst
      exact envStep_sent he (fun tx d h => hl tx d (h ▸ rfl)) hs

/-- Along a run without decisions the channels keep their sessions, and no
decision appears. -/
theorem undecided_run {pin : Option String} {verify : Bool} {cap : ℕ}
    (hreach : Reach (serverStep X) (.init pin verify cap) c)
    (h : Run (serverStep X) Undecided c c') :
    (∀ sid tx, Named c sid tx → Named c' sid tx) ∧
      ∀ (tx : ℕ) (d : PrepareUploadDecisionV2),
        c'.shared.decisions[tx]? = some (.sent d) → c.shared.decisions[tx]? = some (.sent d) := by
  induction h with
  | refl => exact ⟨fun _ _ hn => hn, fun _ _ hs => hs⟩
  | snoc hrun hl hst ih =>
      have hm := channelled_reach (hreach.trans hrun.reach)
      constructor
      · intro sid tx hn
        exact Named.step hm hst (ih.1 sid tx hn)
      · intro tx d hs
        exact ih.2 tx d (serverStep_sent hm hst hl hs)

end Server

/-- Where a decision channel travels with the name of a session, that session
is the one of the handler waiting on it; and every decision is an answer. -/
structure Routed (X : Externals) (pin : Option String) (verify : Bool) (cap : ℕ)
    (p : Stack) : Prop where
  core : Reach (serverStep X) (.init pin verify cap) p.core
  loop : ∀ event, p.bridge.loop = .handle event →
    ∀ sid tx, event.responder = some (sid, tx) → Named p.core sid tx
  pending : ∀ sid tx, p.bridge.pendingDecision = some (sid, tx) → Named p.core sid tx
  answered : ∀ tx a, (tx, a) ∈ p.answered → Named p.core a.session tx
  sent : ∀ (tx : ℕ) (d : PrepareUploadDecisionV2),
    p.core.shared.decisions[tx]? = some (.sent d) →
    ∃ a, (tx, a) ∈ p.answered ∧ a.decision = d

/-- Some handler of the server waits on the decision channel. -/
def Task.awaits (tx : ℕ) (t : Task) : Bool :=
  match t.role with
  | .holding _ rx => rx = tx
  | _ => false

theorem Task.awaits_iff {tx : ℕ} {t : Task} :
    t.awaits tx = true ↔ ∃ ctx, t.role = .holding ctx tx := by
  unfold Task.awaits
  split
  · rename_i ctx rx hr
    simp [hr]
  · rename_i hne
    simpa using fun ctx hr => hne ctx tx hr

/-- An answer is in time if, when `respond_prepare_upload` gets the lock, the
pending decision is the one it was given for, or there is none, or nobody
waits for it any more. -/
def InTime (p : Stack) : StackLabel → Prop
  | .call k =>
      match p.bridge.calls[k]?, p.bridge.pendingDecision with
      | some (.respondPrepareUpload a), some (sid, tx) =>
          sid = a.session ∨ p.core.tasks.all fun t => !t.awaits tx
      | _, _ => True
  | _ => True

instance (p : Stack) (l : StackLabel) : Decidable (InTime p l) := by
  unfold InTime
  split
  · split <;> infer_instance
  · infer_instance

section Stable

variable {X : Externals} {pin : Option String} {verify : Bool} {cap : ℕ} {p p' : Stack}

theorem Routes.routed (h : Routes X p p') (hp : Routed X pin verify cap p) :
    Routed X pin verify cap p' := by
  obtain ⟨hnamed, hsent⟩ := undecided_run hp.core h.run
  have hc := channelled_reach hp.core
  refine ⟨hp.core.trans h.run.reach, ?_, ?_, ?_, ?_⟩
  · intro event hl sid tx hr
    apply hnamed
    rcases h.loop event hl with hold | hq
    · exact hp.loop event hold sid tx hr
    · exact hc.offered event hq sid tx hr
  · intro sid tx hpd
    apply hnamed
    rcases h.pending sid tx hpd with hold | ⟨event, hl, hr⟩
    · exact hp.pending sid tx hold
    · exact hp.loop event hl sid tx hr
  · intro tx a ha
    rw [h.answered] at ha
    exact hnamed _ _ (hp.answered tx a ha)
  · intro tx d hs
    rw [h.answered]
    exact hp.sent tx d (hsent tx d hs)

/-- A response: the pending decision is resolved and the answer recorded. -/
theorem respond_some {k : ℕ} {a : Answer} {sid : String} {tx : ℕ}
    (hp : p.bridge.pendingDecision = some (sid, tx)) :
    (p.endCall k).respond X a =
      { (p.endCall k).use X (.decide tx a.decision) with
        bridge := { (p.endCall k).bridge with pendingDecision := none }
        answered := p.answered ++ [(tx, a)] } := by
  have hp' : (p.endCall k).bridge.pendingDecision = some (sid, tx) := hp
  simp only [Stack.respond, hp']
  rw [use_eq]
  rfl

/-- After the use of a decision channel, its decision is the one sent or was
there before. -/
theorem decide_sent {c c' : ServerPool} {tx tx' : ℕ} {d d' : PrepareUploadDecisionV2}
    (hst : serverStep X c (.env (.decide tx d)) = some c')
    (hs : c'.shared.decisions[tx']? = some (.sent d')) :
    c.shared.decisions[tx']? = some (.sent d') ∨ (tx' = tx ∧ d' = d) := by
  obtain ⟨s, ts, he, rfl⟩ := poolStep_env.mp hst
  obtain ⟨decisions, hd, hs'⟩ := Option.map_eq_some_iff.mp he
  obtain ⟨rfl, rfl⟩ := Prod.mk.inj hs'
  obtain ⟨-, rfl⟩ := resolve_eq_some.mp hd
  have hset : (c.shared.decisions.set tx (.sent d))[tx']? = some (.sent d') := hs
  rw [List.getElem?_set] at hset
  split_ifs at hset with h1
  · exact .inr ⟨h1.symm, (Oneshot.sent.inj (Option.some.inj hset)).symm⟩
  · exact .inl hset

/-- In time, the channel of the pending decision is not that of another
session's handler. -/
theorem inTime_named {k : ℕ} {a : Answer} {sid : String} {tx : ℕ}
    (hp : Routed X pin verify cap p)
    (ha : p.bridge.calls[k]? = some (.respondPrepareUpload a))
    (hpd : p.bridge.pendingDecision = some (sid, tx)) (hok : InTime p (.call k)) :
    Named p.core a.session tx := by
  have hn := hp.pending sid tx hpd
  simp only [InTime, ha, hpd] at hok
  rcases hok with rfl | hnone
  · exact hn
  · refine ⟨hn.1, fun t ht ctx hr => ?_⟩
    have hnot := List.all_eq_true.mp hnone t ht
    rw [Task.awaits_iff.mpr ⟨ctx, hr⟩] at hnot
    cases hnot

/-- An answer in time keeps the invariant. -/
theorem respond_routed {k : ℕ} {a : Answer} (hp : Routed X pin verify cap p)
    (ha : p.bridge.calls[k]? = some (.respondPrepareUpload a)) (hok : InTime p (.call k)) :
    Routed X pin verify cap ((p.endCall k).respond X a) := by
  cases hpd : p.bridge.pendingDecision with
  | none =>
      have hpd' : (p.endCall k).bridge.pendingDecision = none := hpd
      have heq : (p.endCall k).respond X a = p.endCall k := by
        simp only [Stack.respond, hpd']
      rw [heq]
      exact ⟨hp.core, hp.loop, hp.pending, hp.answered, hp.sent⟩
  | some pending =>
      obtain ⟨sid, tx⟩ := pending
      have hnew := inTime_named hp ha hpd hok
      rw [respond_some hpd]
      unfold Stack.use
      cases hst : serverStep X (p.endCall k).core (.env (.decide tx a.decision)) with
      | none =>
          refine ⟨hp.core, hp.loop, ?_, ?_, ?_⟩
          · intro sid' tx' h
            cases h
          · intro tx' a' hm
            rcases List.mem_append.mp hm with hm | hm
            · exact hp.answered tx' a' hm
            · cases List.mem_singleton.mp hm
              exact hnew
          · intro tx' d hs
            obtain ⟨a', hm, hd⟩ := hp.sent tx' d hs
            exact ⟨a', List.mem_append_left _ hm, hd⟩
      | some core =>
          have hc := channelled_reach hp.core
          refine ⟨hp.core.snoc trivial hst, ?_, ?_, ?_, ?_⟩
          · exact fun event hl sid tx hr => Named.step hc hst (hp.loop event hl sid tx hr)
          · intro sid' tx' h
            cases h
          · intro tx' a' hm
            rcases List.mem_append.mp hm with hm | hm
            · exact Named.step hc hst (hp.answered tx' a' hm)
            · cases List.mem_singleton.mp hm
              exact Named.step hc hst hnew
          · intro tx' d hs
            rcases decide_sent hst hs with hold | ⟨rfl, rfl⟩
            · obtain ⟨a', hm, hd⟩ := hp.sent tx' d hold
              exact ⟨a', List.mem_append_left _ hm, hd⟩
            · exact ⟨a, List.mem_append_right _ (List.mem_singleton_self _), rfl⟩

theorem routed_run (h : Run (stackStep X) InTime (.init pin verify cap) p) :
    Routed X pin verify cap p := by
  apply h.invariant
  · refine ⟨.refl, ?_, ?_, ?_, ?_⟩
    · intro event hl
      cases hl
    · intro sid tx hp
      cases hp
    · intro tx a ha
      cases ha
    · intro tx d hs
      cases hs
  · intro m l t hm hok hst
    rcases stackStep_routes hst with ⟨k, a, rfl, ha, rfl⟩ | hr
    · exact respond_routed hm ha hok
    · exact hr.routed hm

end Stable

/-! ## §3  Answers in time -/

/-- Decisions reach the request they were made for: the answers sent on the
channel of a waiting handler are the application's answers for the session of
that handler, and a decision that waits for it there is one of them. -/
structure DecisionsMatch (p : Stack) : Prop where
  answered : ∀ tx a, (tx, a) ∈ p.answered → ∀ t ∈ p.core.tasks, ∀ ctx,
    t.role = .holding ctx tx → a.session = ctx.sessionId
  decided : ∀ t ∈ p.core.tasks, ∀ ctx tx, t.role = .holding ctx tx →
    ∀ d, p.core.shared.decisions[tx]? = some (.sent d) →
      ∃ a, (tx, a) ∈ p.answered ∧ a.session = ctx.sessionId ∧ a.decision = d

/-- **Decisions reach only their own request**, in every run in which each
answer gets to `respond_prepare_upload` in time. -/
theorem decisions_match {X : Externals} {pin : Option String} {verify : Bool} {cap : ℕ}
    {p : Stack} (h : Run (stackStep X) InTime (.init pin verify cap) p) :
    DecisionsMatch p := by
  have hp := routed_run h
  have hans : ∀ tx a, (tx, a) ∈ p.answered → ∀ t ∈ p.core.tasks, ∀ ctx,
      t.role = .holding ctx tx → a.session = ctx.sessionId :=
    fun tx a ha t ht ctx hr => ((hp.answered tx a ha).2 t ht ctx hr).symm
  constructor
  · exact hans
  · intro t ht ctx tx hr d hs
    obtain ⟨a, ha, hd⟩ := hp.sent tx d hs
    exact ⟨a, ha, hans tx a ha t ht ctx hr, hd⟩

/-- A decision leaves the tasks of the server alone. -/
theorem decide_tasks {X : Externals} {p : Stack} {tx : ℕ} {d : PrepareUploadDecisionV2} :
    (p.use X (.decide tx d)).core.tasks = p.core.tasks := by
  unfold Stack.use
  cases hst : serverStep X p.core (.env (.decide tx d)) with
  | none => rfl
  | some core =>
      obtain ⟨s, ts, he, rfl⟩ := poolStep_env.mp hst
      obtain ⟨decisions, -, hs⟩ := Option.map_eq_some_iff.mp he
      obtain ⟨rfl, rfl⟩ := Prod.mk.inj hs
      exact List.append_nil _

/-- The condition is exact: an answer that is not in time is delivered as the
decision of another session. -/
theorem late_answer_misroutes {X : Externals} {pin : Option String} {verify : Bool}
    {cap : ℕ} {p p' : Stack} {l : StackLabel}
    (h : Run (stackStep X) InTime (.init pin verify cap) p)
    (hst : stackStep X p l = some p') (hlate : ¬ InTime p l) : ¬ DecisionsMatch p' := by
  have hp := routed_run h
  cases l with
  | call k =>
      simp only [InTime] at hlate
      split at hlate
      · rename_i a sid tx ha hpd
        rw [not_or] at hlate
        obtain ⟨hne, hall⟩ := hlate
        obtain ⟨t, ht, hw⟩ : ∃ t ∈ p.core.tasks, t.awaits tx = true := by
          simpa using hall
        obtain ⟨ctx, hr⟩ := Task.awaits_iff.mp hw
        have hsid := (hp.pending sid tx hpd).2 t ht ctx hr
        have heq : p' = (p.endCall k).respond X a := by
          simp only [stackStep, Stack.runCall, ha] at hst
          exact (Option.some.inj hst).symm
        rw [respond_some hpd] at heq
        subst heq
        intro hm
        have hmem : (tx, a) ∈ p.answered ++ [(tx, a)] := by simp
        have htasks : t ∈ ((p.endCall k).use X (.decide tx a.decision)).core.tasks := by
          rw [decide_tasks]
          exact ht
        exact hne (hsid.symm.trans (hm.answered tx a hmem t htasks ctx hr).symm)
      · exact absurd trivial hlate
  | _ => exact absurd trivial hlate

/-! ## §4  Concrete runs -/

namespace Sample

def stack : Stack := .init none true 16

/-- What the application needs to receive the file of a sample request. -/
def config (sessionId : String) : HttpServerReceiveConfig where
  sessionId := sessionId
  fileNameMap := .ofList [("file1", "test.png")]
  destinationDirectory := "/downloads"
  cacheDirectory := "/cache"
  saveToGallery := false
  androidSdkInt := none

/-- A request travels up to the application. -/
def offered (i : ℕ) : List StackLabel :=
  (prepare i).map .core ++ [.listen, .listen, .listen, .event, .take]

/-- The application accepts the first request and its answer gets as far as
the bridge; meanwhile the sender disconnects, the request is cleaned up and a
second request takes its place. -/
def lateAnswer : List StackLabel :=
  offered 0 ++ [.answer (.accept (config "")), .task, .core (.task 0 .drop),
    .core (.task 1 .go), .core (.task 1 .go), .listen, .listen, .listen] ++
    offered 2 ++ [.call 0]

end Sample

/-- An answer for another session was sent on the channel of a handler. -/
def Stack.misrouted (p : Stack) : Bool :=
  p.answered.any fun r => p.core.tasks.any fun t =>
    match t.role with
    | .holding ctx rx => rx = r.1 && r.2.session ≠ ctx.sessionId
    | _ => false

theorem not_decisionsMatch {p : Stack} (h : p.misrouted = true) : ¬ DecisionsMatch p := by
  intro hm
  obtain ⟨⟨tx, a⟩, ha, h⟩ := List.any_eq_true.mp h
  obtain ⟨t, ht, h⟩ := List.any_eq_true.mp h
  split at h
  · rename_i ctx rx hr
    rw [Bool.and_eq_true, decide_eq_true_eq, decide_eq_true_eq] at h
    obtain ⟨rfl, hne⟩ := h
    exact hne (hm.answered _ a ha t ht ctx hr)
  · cases h

/-- Without the condition an answer for one session is delivered as the
decision of another. -/
theorem decisions_match_fails :
    ¬ ∀ p, Reach (stackStep .unary) Sample.stack p → DecisionsMatch p := by
  intro h
  obtain ⟨p, hp, hbad⟩ := exists_of_exec_any (stackStep .unary) Sample.stack
    Sample.lateAnswer Stack.misrouted rfl
  exact not_decisionsMatch hbad (h p (reach_of_exec hp))

/-- An answer in time: the handler finds the decision on its channel. -/
theorem decisions_match_in_time :
    ∃ p, Run (stackStep .unary) InTime Sample.stack p ∧ p.answered.length = 1 ∧
      DecisionsMatch p := by
  obtain ⟨p, hp, hcheck⟩ := exists_of_exec_any (stackStep .unary) Sample.stack
    (Sample.offered 0 ++ [.answer (.accept (Sample.config "")), .task, .call 0])
    (fun p => p.answered.length = 1) rfl
  have hrun : Run (stackStep .unary) InTime Sample.stack p := run_of_exec hp (by decide)
  exact ⟨p, hrun, by simpa using hcheck, decisions_match hrun⟩

end FireBoxTransfer

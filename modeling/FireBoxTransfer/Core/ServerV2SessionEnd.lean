import FireBoxTransfer.Core.ServerV2Ownership

/-!
# `SessionEnd`: is the end of every session reported once?

A handler that removes an active session empties the slot under its lock and
sends the event afterwards, at an await of its own. A second observer of the
server notes down which session left the slot in which step, and which
`SessionEnd` was put into the event channel. The two lists agree, up to the
handlers that are about to send, as long as no future is dropped at that very
await: there no guard is armed, and the event is lost.
-/

namespace FireBoxTransfer

open TaskPool Runs

/-! ## §1  What the observer notes down -/

/-- A session left the slot, with the reason to report, if any; a `SessionEnd`
was put into the channel. -/
inductive EndSeen where
  | left (sessionId : String) (reason : Option SessionEndReasonV2)
  | reported (sessionId : String) (reason : SessionEndReasonV2)
deriving DecidableEq

/-- The slot holds the active session with this identifier. -/
def Holds (sessionId : String) : Option SessionStateV2 → Bool
  | some (.active session) => session.sessionId == sessionId
  | _ => false

/-- The active session that was in the slot and is not any more. -/
def departed (slot slot' : Option SessionStateV2) : Option String :=
  match slot with
  | some (.active session) =>
      if Holds session.sessionId slot' then none else some session.sessionId
  | _ => none

/-- Why a session ended that a step of this task removed from the slot: the
completion of its last file or the peer's `/cancel`; `cancel_v2_session` is
the application's own doing. -/
def Task.endReason : Task → Option SessionEndReasonV2
  | .upload _ | .cleanup _ => some .finished
  | .cancel _ => some .cancelled
  | _ => none

def ServerEventV2.sessionEnd? : ServerEventV2 → Option EndSeen
  | .sessionEnd sessionId reason => some (.reported sessionId reason)
  | _ => none

/-- The events that a step appended to the channel. -/
def sentEvents (s s' : ServerV2) : List ServerEventV2 :=
  s'.events.queue.drop s.events.queue.length

def endSeen (s : ServerV2) (t : Task) (o : Step) : List EndSeen :=
  ((departed s.session o.shared.session).map fun sid => .left sid t.endReason).toList ++
    (sentEvents s o.shared).filterMap ServerEventV2.sessionEnd?

abbrev ObservedPool : Type := Pool ServerV2 Task (Seen ⊕ EndSeen)

def ObservedPool.init (pin : Option String) (verifyChecksums : Bool) (cap : ℕ) :
    ObservedPool :=
  ⟨.start pin verifyChecksums cap, [], []⟩

abbrev observedStep (X : Externals) : ObservedPool → ServerLabel → Option ObservedPool :=
  ((serverMachine X).observe endSeen).poolStep

/-- The `SessionEnd` that a task waits to send. -/
def Task.ending : Task → Option (String × SessionEndReasonV2)
  | .upload (.ended ctx _) => some (ctx.sessionId, .finished)
  | .cancel (.send (.sessionEnd sessionId reason)) => some (sessionId, reason)
  | .cleanup (.ended sessionId) => some (sessionId, .finished)
  | _ => none

def departure? (sid : String) : Seen ⊕ EndSeen → Option (Option SessionEndReasonV2)
  | .inr (.left sid' reason) => if sid' = sid then some reason else none
  | _ => none

def report? (sid : String) : Seen ⊕ EndSeen → Option SessionEndReasonV2
  | .inr (.reported sid' reason) => if sid' = sid then some reason else none
  | _ => none

def Task.ending? (sid : String) (t : Task) : Option SessionEndReasonV2 :=
  t.ending.bind fun e => if e.1 = sid then some e.2 else none

/-- The reasons reported for a session so far. -/
def reports (p : ObservedPool) (sid : String) : List SessionEndReasonV2 :=
  p.log.filterMap (report? sid)

/-- The reasons that tasks still wait to report. -/
def awaiting (p : ObservedPool) (sid : String) : List SessionEndReasonV2 :=
  p.tasks.filterMap (Task.ending? sid)

/-- **Reported exactly once**: for a session that left through its last file
or the peer's `/cancel` there is one `SessionEnd`, sent or about to be sent,
with the reason of the step that removed it; for one that the application
removed there is none. -/
structure SessionEndOnce (p : ObservedPool) : Prop where
  peer : ∀ {sid reason}, .inr (.left sid (some reason)) ∈ p.log →
    reports p sid ++ awaiting p sid = [reason]
  application : ∀ {sid}, .inr (.left sid none) ∈ p.log →
    reports p sid ++ awaiting p sid = []

/-- The step does not drop a future that waits to send a `SessionEnd`. -/
def DropsNoEnding (p : ObservedPool) : ServerLabel → Prop
  | .task i .drop => ∀ t ∈ p.tasks[i]?, t.ending = none
  | _ => True

instance (p : ObservedPool) : ∀ l, Decidable (DropsNoEnding p l)
  | .task i .drop => inferInstanceAs (Decidable (∀ t ∈ p.tasks[i]?, t.ending = none))
  | .task _ .go | .task _ (.body _) | .task _ .decision | .task _ .cancelled
  | .task _ (.saved _) | .env _ => .isTrue trivial

/-! ## §2  What one step does -/

theorem holds_iff {sid : String} {slot : Option SessionStateV2} :
    Holds sid slot = true ↔
      ∃ session, slot = some (.active session) ∧ session.sessionId = sid := by
  unfold Holds
  split <;> simp_all

theorem departed_eq_some {slot slot' : Option SessionStateV2} {sid : String} :
    departed slot slot' = some sid ↔ Holds sid slot = true ∧ Holds sid slot' = false := by
  unfold departed
  split
  · rename_i session
    split_ifs with h
    · constructor
      · intro h'
        cases h'
      · rintro ⟨hid, hnot⟩
        obtain rfl : session.sessionId = sid := by simpa [Holds] using hid
        rw [h] at hnot
        cases hnot
    · constructor
      · intro h'
        obtain rfl := Option.some.inj h'
        exact ⟨by simp [Holds], by simpa using h⟩
      · rintro ⟨hid, -⟩
        obtain rfl : session.sessionId = sid := by simpa [Holds] using hid
        rfl
  · rename_i hnot
    constructor
    · intro h'
      cases h'
    · rintro ⟨hid, -⟩
      obtain ⟨session, rfl, -⟩ := holds_iff.mp hid
      exact absurd rfl (hnot session)

theorem departed_eq_none {slot slot' : Option SessionStateV2}
    (h : ∀ session, slot = some (.active session) → Holds session.sessionId slot' = true) :
    departed slot slot' = none := by
  rw [Option.eq_none_iff_forall_ne_some]
  intro sid hsid
  obtain ⟨hold, hnot⟩ := departed_eq_some.mp hsid
  obtain ⟨session, hs, rfl⟩ := holds_iff.mp hold
  rw [h session hs] at hnot
  cases hnot

theorem departed_self (slot : Option SessionStateV2) : departed slot slot = none :=
  departed_eq_none fun session hs => holds_iff.mpr ⟨session, hs, rfl⟩

/-- Everything one step may do to the notes: a handler sends the `SessionEnd`
it waits to send, or gives it up; it removes a session and goes on to wait;
or it does none of these. -/
inductive EndMove (s : ServerV2) (t : Task) (a : Act) (o : Step) : Prop
  | report {sid reason} (ht : t.ending = some (sid, reason)) (ho : o.task.ending = none)
      (hsp : o.spawned = []) (hs : o.shared.session = s.session)
      (he : o.shared.events =
        { s.events with queue := s.events.queue ++ [.sessionEnd sid reason] })
  | lose (ht : t.ending ≠ none) (h : a = .drop ∨ s.events.closed = true)
      (he : o.shared.events = s.events)
  | leave {sid reason} (ht : t.ending = none) (hr : t.endReason = some reason)
      (ho : o.task.ending = some (sid, reason)) (hsp : o.spawned = [])
      (hs : departed s.session o.shared.session = some sid)
      (he : o.shared.events = s.events)
  | quiet {l} (ht : t.ending = none) (ho : o.task.ending = none)
      (hsp : ∀ u ∈ o.spawned, u.ending = none)
      (hs : t.endReason = none ∨ departed s.session o.shared.session = none)
      (he : o.shared.events = { s.events with queue := s.events.queue ++ l })
      (hno : l.filterMap ServerEventV2.sessionEnd? = [])

/-- A step that sends nothing and keeps the session. -/
theorem EndMove.still {s : ServerV2} {t : Task} {a : Act} {o : Step}
    (ht : t.ending = none) (ho : o.task.ending = none)
    (hsp : ∀ u ∈ o.spawned, u.ending = none)
    (hs : t.endReason = none ∨ departed s.session o.shared.session = none)
    (he : o.shared.events = s.events) : EndMove s t a o :=
  .quiet (l := []) ht ho hsp hs (by rw [he, List.append_nil]) rfl

/-- A step that sends another event. -/
theorem EndMove.sends {s : ServerV2} {t : Task} {a : Act} {o : Step} {event : ServerEventV2}
    (ht : t.ending = none) (ho : o.task.ending = none)
    (hsp : ∀ u ∈ o.spawned, u.ending = none) (hs : o.shared.session = s.session)
    (he : s.events.send event = some (.ok o.shared.events))
    (hno : event.sessionEnd? = none) : EndMove s t a o := by
  refine .quiet ht ho hsp (.inr ?_) (EventChannel.send_eq_ok he) (by simp [hno])
  rw [hs]
  exact departed_self _

/-- The removal of a session by a finalization, if it ended. -/
theorem finalizeFile_departed (sid fid : String) (result : SaveResult)
    (slot : Option SessionStateV2) :
    departed slot (finalizeFile sid fid result slot).1 =
      if (finalizeFile sid fid result slot).2 then some sid else none := by
  split_ifs with h
  · obtain ⟨hnone, session, hs, hid⟩ := finalizeFile_eq_true h
    rw [departed_eq_some, hnone, holds_iff]
    exact ⟨⟨session, hs, hid⟩, rfl⟩
  · apply departed_eq_none
    rintro session rfl
    rw [Bool.not_eq_true] at h
    obtain ⟨session', hs', hid⟩ := finalizeFile_eq_false h
    exact holds_iff.mpr ⟨session', hs', hid⟩

/-- **Every step of a task is one of these.** -/
theorem taskStep_endMove {X : Externals} {s : ServerV2} {t : Task} {a : Act} {o : Step}
    (h : taskStep X s t a = some o) : EndMove s t a o := by
  have hsame : departed s.session s.session = none := departed_self _
  cases taskStep_cases h with
  | asked hsend | offered hsend | abortSent hsend => exact .sends rfl rfl (by simp) rfl hsend rfl
  -- a handler that holds the slot removes no active session
  | claimed | cleared | activated | removed => exact .still rfl rfl (by simp) (.inl rfl) rfl
  | begun hb =>
      obtain ⟨session, file, hs, -, -, -, -, -, -, rfl⟩ := beginUpload_eq_ok.mp hb
      refine .still rfl rfl (by simp) (.inr (departed_eq_none fun session' hs' => ?_)) rfl
      obtain rfl : session = session' := by simpa [hs] using hs'
      exact holds_iff.mpr ⟨_, rfl, rfl⟩
  | @finished ctx result hended =>
      have hdep := finalizeFile_departed ctx.sessionId ctx.fileId result s.session
      rw [hended, if_neg Bool.false_ne_true] at hdep
      exact .still rfl rfl (by simp) (.inr hdep) rfl
  | @finishedLast ctx result hended =>
      have hdep := finalizeFile_departed ctx.sessionId ctx.fileId result s.session
      rw [hended, if_pos rfl] at hdep
      exact .leave rfl rfl rfl rfl hdep rfl
  | @guardFinished sid fid hended =>
      have hdep := finalizeFile_departed sid fid .failed s.session
      rw [hended, if_neg Bool.false_ne_true] at hdep
      exact .still rfl rfl (by simp) (.inr hdep) rfl
  | @guardFinishedLast sid fid hended =>
      have hdep := finalizeFile_departed sid fid .failed s.session
      rw [hended, if_pos rfl] at hdep
      exact .leave rfl rfl rfl rfl hdep rfl
  | endLost hsend | guardEndLost hsend =>
      exact .lose (by simp [Task.ending]) (.inr (EventChannel.send_eq_error hsend)) rfl
  | dropEnded => exact .lose (by simp [Task.ending]) (.inl rfl) rfl
  | endSent hsend | guardEndSent hsend =>
      exact .report rfl rfl rfl rfl (EventChannel.send_eq_ok hsend)
  | @cancelledActive clientInfo sid hc =>
      obtain ⟨hnone, session, hs, hid, -⟩ := cancelActive_eq_true hc
      refine .leave rfl rfl rfl rfl ?_ rfl
      rw [departed_eq_some, holds_iff]
      refine ⟨⟨session, hs, hid⟩, ?_⟩
      show Holds sid (cancelActive clientInfo.ip sid s.session).1 = false
      rw [hnone]
      rfl
  | @notActive clientInfo sid hc =>
      refine .still rfl rfl (by simp) (.inr ?_) rfl
      show departed s.session (cancelActive clientInfo.ip sid s.session).1 = none
      rw [cancelActive_eq_false hc]
      exact hsame
  | @newsLost event hsend =>
      cases event with
      | sessionEnd =>
          exact .lose (by simp [Task.ending]) (.inr (EventChannel.send_eq_error hsend)) rfl
      | _ => exact .still rfl rfl (by simp) (.inr hsame) rfl
  | @newsSent event events hsend =>
      cases event with
      | sessionEnd => exact .report rfl rfl rfl rfl (EventChannel.send_eq_ok hsend)
      | _ => exact .sends rfl rfl (by simp) rfl hsend rfl
  | @dropCancel pc =>
      cases hending : Task.ending (.cancel pc) with
      | none => exact .still hending rfl (by simp) (.inr hsame) rfl
      | some e => exact .lose (hending ▸ Option.some_ne_none e) (.inl rfl) rfl
  | guardCleared =>
      refine .still rfl rfl (by simp) (.inr (departed_eq_none fun session hs => ?_)) rfl
      exact holds_iff.mpr ⟨session, clearPendingSession_eq_active.mpr hs, rfl⟩
  | _ => exact .still rfl rfl (by simp [abandonPending, Task.ending]) (.inr hsame) rfl

/-! ## §3  A session leaves once -/

/-- The reasons with which a session left the slot. -/
def departures (log : List (Seen ⊕ EndSeen)) (sid : String) :
    List (Option SessionEndReasonV2) :=
  log.filterMap (departure? sid)

theorem mem_departures {log : List (Seen ⊕ EndSeen)} {sid : String}
    {reason : Option SessionEndReasonV2} :
    reason ∈ departures log sid ↔ .inr (.left sid reason) ∈ log := by
  unfold departures
  rw [List.mem_filterMap]
  constructor
  · rintro ⟨x, hx, hdep⟩
    unfold departure? at hdep
    split at hdep
    · split_ifs at hdep with hsid
      subst hsid
      obtain rfl := Option.some.inj hdep
      exact hx
    · cases hdep
  · intro h
    exact ⟨_, h, by simp [departure?]⟩

/-- What an observed step of a task notes down. -/
def observedSeen (s : ServerV2) (t : Task) (o : Step) : List (Seen ⊕ EndSeen) :=
  o.seen.map .inl ++ (endSeen s t o).map .inr

theorem departures_observedSeen (s : ServerV2) (t : Task) (o : Step) (sid : String) :
    departures (observedSeen s t o) sid =
      if departed s.session o.shared.session = some sid then [t.endReason] else [] := by
  have hinl : (o.seen.map Sum.inl).filterMap (departure? sid) = [] := by
    rw [List.filterMap_map, List.filterMap_eq_nil_iff]
    intro x _
    rfl
  have hsent : (((sentEvents s o.shared).filterMap ServerEventV2.sessionEnd?).map
      Sum.inr).filterMap (departure? sid) = [] := by
    rw [List.filterMap_map, List.filterMap_eq_nil_iff]
    intro x hx
    obtain ⟨event, -, he⟩ := List.mem_filterMap.mp hx
    cases event <;> cases he
    rfl
  unfold departures observedSeen endSeen
  rw [List.map_append, List.filterMap_append, List.filterMap_append, hinl, hsent,
    List.nil_append, List.append_nil]
  cases hd : departed s.session o.shared.session with
  | none => rfl
  | some sid' =>
      by_cases hsid : sid' = sid
      · simp [departure?, hsid]
      · simp [departure?, hsid]

/-- A session that left was activated and does not come back. -/
structure DepartedOnce (p : ObservedPool) (sid : String) : Prop where
  once : (departures p.log sid).length ≤ 1
  gone : departures p.log sid ≠ [] →
    .inl (.activated sid) ∈ p.log ∧ Holds sid p.shared.session = false

theorem Move.holds_new {X : Externals} {s s' : ServerV2} {r r' : Role} {a : Act}
    {rs : List Role} {seen : List Seen} (h : Move X s r a s' r' rs seen) {sid : String}
    (hs' : Holds sid s'.session = true) :
    Holds sid s.session = true ∨ .activated sid ∈ seen := by
  obtain ⟨session', hsess, rfl⟩ := holds_iff.mp hs'
  rcases h.active_new hsess with ⟨session, hs, hid⟩ | hm
  · exact .inl (holds_iff.mpr ⟨session, hs, hid⟩)
  · exact .inr hm

theorem ownership_observed {X : Externals} {pin : Option String} {verify : Bool} {cap : ℕ}
    {p : ObservedPool} (h : Reach (observedStep X) (.init pin verify cap) p) :
    (ownership X).Holds p.forget := by
  have hreach : Reach (serverStep X) (.init pin verify cap) p.forget :=
    run_forget (fun _ _ => True) h
  exact ownership_reach hreach

theorem departedOnce_reach {X : Externals} {pin : Option String} {verify : Bool} {cap : ℕ}
    {p : ObservedPool} (h : Reach (observedStep X) (.init pin verify cap) p) (sid : String) :
    DepartedOnce p sid := by
  have hown : Run (observedStep X)
      (fun q _ => True ∧ (ownership X).Holds q.forget) (.init pin verify cap) p :=
    h.strengthen fun q hq => ownership_observed hq
  refine hown.invariant (I := fun q => DepartedOnce q sid) ?_ ?_
  · constructor <;> simp [departures, ObservedPool.init]
  rintro q l q' hq ⟨-, hp⟩ hst
  cases l with
  | env e =>
      obtain ⟨s, ts, he, rfl⟩ := poolStep_env.mp hst
      refine ⟨hq.once, fun hne => ?_⟩
      show _ ∧ Holds sid s.session = false
      rw [(envStep_quiet he).1.session]
      exact hq.gone hne
  | task i a =>
      obtain ⟨t, o, ht, ho, rfl⟩ := poolStep_task.mp hst
      obtain ⟨o₀, ho₀, hs, -, -, hseen⟩ := observe_step.mp ho
      have hm := taskStep_move ho₀
      have hlog : departures (q.log ++ o.seen) sid = departures q.log sid ++
          departures (observedSeen q.shared t o₀) sid := by
        rw [hseen]
        exact List.filterMap_append
      have hnew := departures_observedSeen q.shared t o₀ sid
      by_cases hdep : departed q.shared.session o₀.shared.session = some sid
      · -- the session was in the slot until now, so it had not left before
        obtain ⟨hold, hnot⟩ := departed_eq_some.mp hdep
        have hfirst : departures q.log sid = [] := by
          by_contra hne
          rw [(hq.gone hne).2] at hold
          cases hold
        obtain ⟨session, hsess, rfl⟩ := holds_iff.mp hold
        rw [if_pos hdep] at hnew
        rw [hnew, hfirst] at hlog
        refine ⟨?_, fun _ => ⟨?_, ?_⟩⟩
        · show (departures (q.log ++ o.seen) _).length ≤ 1
          rw [hlog]
          exact Nat.le_refl 1
        · exact List.mem_append_left _ (Pool.mem_forget_log.mp (hp.glob.active hsess))
        · show Holds _ o.shared.session = false
          rw [hs]
          exact hnot
      · rw [if_neg hdep] at hnew
        rw [hnew, List.append_nil] at hlog
        refine ⟨?_, fun hne => ?_⟩
        · show (departures (q.log ++ o.seen) _).length ≤ 1
          rw [hlog]
          exact hq.once
        · have hne' : departures q.log sid ≠ [] := by
            rw [← hlog]
            exact hne
          obtain ⟨hact, hgone⟩ := hq.gone hne'
          refine ⟨List.mem_append_left _ hact, ?_⟩
          show Holds sid o.shared.session = false
          rw [hs, ← Bool.not_eq_true]
          intro hback
          -- only a pending session is activated, and this one was before
          rcases hm.holds_new hback with hold | hseen'
          · rw [hgone] at hold
            cases hold
          · obtain ⟨pending, hpend, hid⟩ := (hp.loc ht).settles (hm.activated_mem hseen').1
            refine (hp.glob.pending hpend).2 ?_
            rw [hid]
            exact Pool.mem_forget_log.mpr hact

/-! ## §4  Every departure is reported -/

theorem count_filterMap_eq_sum {α β : Type} [BEq β] (f : α → Option β) (l : List α) (b : β) :
    (l.filterMap f).count b = (l.map fun x => (f x).toList.count b).sum := by
  rw [List.filterMap_eq_flatMap_toList, List.count_flatMap]
  rfl

theorem reports_observedSeen {s : ServerV2} {t : Task} {o : Step} {l : List ServerEventV2}
    (he : o.shared.events = { s.events with queue := s.events.queue ++ l }) (sid : String) :
    (observedSeen s t o).filterMap (report? sid) =
      ((l.filterMap ServerEventV2.sessionEnd?).map Sum.inr).filterMap (report? sid) := by
  have hinl : (o.seen.map Sum.inl).filterMap (report? sid) = [] := by
    rw [List.filterMap_map, List.filterMap_eq_nil_iff]
    intro x _
    rfl
  have hsent : sentEvents s o.shared = l := by
    rw [sentEvents, he]
    exact List.drop_left
  have hleft : ((((departed s.session o.shared.session).map fun sid =>
      EndSeen.left sid t.endReason).toList).map Sum.inr).filterMap (report? sid) = [] := by
    cases departed s.session o.shared.session <;> rfl
  unfold observedSeen endSeen
  rw [List.map_append, List.filterMap_append, List.filterMap_append, hinl, hleft, hsent]
  rfl

theorem Task.ending?_none {t : Task} (h : t.ending = none) (sid : String) :
    t.ending? sid = none := by
  rw [Task.ending?, h]
  rfl

theorem Task.ending?_some {t : Task} {e : String × SessionEndReasonV2}
    (h : t.ending = some e) (sid : String) :
    t.ending? sid = if e.1 = sid then some e.2 else none := by
  rw [Task.ending?, h]
  rfl

/-- Tasks without a `SessionEnd` to send owe nothing. -/
theorem owed_eq_zero {ts : List Task} (h : ∀ u ∈ ts, u.ending = none) (sid : String)
    (reason : SessionEndReasonV2) :
    (ts.map fun t => (Task.ending? sid t).toList.count reason).sum = 0 := by
  rw [List.sum_eq_zero_iff_forall_eq_nat]
  intro n hn
  obtain ⟨u, hu, rfl⟩ := List.mem_map.mp hn
  rw [Task.ending?_none (h u hu)]
  rfl

/-- The requests that arrive have nothing to send, and a channel that is open
was so before. -/
theorem envStep_ending {s s' : ServerV2} {e : Env} {ts : List Task}
    (h : envStep s e = some (s', ts)) :
    (∀ t ∈ ts, t.ending = none) ∧
      (s'.events.closed = false → s.events.closed = false) := by
  cases envStep_cases h with
  | registered hsend =>
      exact ⟨by simp, fun hc => by rwa [EventChannel.send_eq_ok hsend] at hc⟩
  | close => exact ⟨by simp, fun hc => by cases hc⟩
  | _ => exact ⟨by simp [Task.ending], id⟩

theorem EndMove.open_before {s : ServerV2} {t : Task} {a : Act} {o : Step}
    (h : EndMove s t a o) (hopen : o.shared.events.closed = false) :
    s.events.closed = false := by
  cases h with
  | report _ _ _ _ he | quiet _ _ _ _ he => rwa [he] at hopen
  | lose _ _ he | leave _ _ _ _ _ he => rwa [he] at hopen

theorem open_before {X : Externals} {p p' : ObservedPool} {l : ServerLabel}
    (hst : observedStep X p l = some p') (hopen : p'.shared.events.closed = false) :
    p.shared.events.closed = false := by
  cases l with
  | task i a =>
      obtain ⟨t, o, -, ho, rfl⟩ := poolStep_task.mp hst
      obtain ⟨o₀, ho₀, hs, -⟩ := observe_step.mp ho
      apply (taskStep_endMove ho₀).open_before
      rw [← hs]
      exact hopen
  | env e =>
      obtain ⟨s, ts, he, rfl⟩ := poolStep_env.mp hst
      exact (envStep_ending he).2 hopen

/-- The account of the departures with a given reason: on the other side stand
the reports, and the tasks about to report. -/
theorem endBalance_stable (X : Externals) (sid : String) (reason : SessionEndReasonV2) :
    BalanceStable (fun x => (departure? sid x).toList.count (some reason))
      (fun x => (report? sid x).toList.count reason) (fun _ => 0)
      (fun t => (Task.ending? sid t).toList.count reason)
      ((serverMachine X).observe endSeen)
      (fun p l => DropsNoEnding p l ∧ p.shared.events.closed = false) where
  own := by
    rintro p i a t o ⟨hdrop, hopen⟩ ht ho
    obtain ⟨o₀, ho₀, -, htask, hsp, hseen⟩ := observe_step.mp ho
    change o.seen = observedSeen p.shared t o₀ at hseen
    have hcredit : (o.seen.map fun x => (departure? sid x).toList.count (some reason)).sum =
        (if departed p.shared.session o₀.shared.session = some sid then [t.endReason]
          else []).count (some reason) := by
      rw [← count_filterMap_eq_sum, hseen]
      exact congrArg _ (departures_observedSeen p.shared t o₀ sid)
    have hdebit : (o.seen.map fun x => (report? sid x).toList.count reason).sum =
        ((observedSeen p.shared t o₀).filterMap (report? sid)).count reason := by
      rw [← count_filterMap_eq_sum, hseen]
    rw [hcredit, hdebit, htask, hsp]
    cases taskStep_endMove ho₀ with
    | @report sid' reason' hend hend' hspawn hsess hev =>
        -- the task owed the report until now
        rw [reports_observedSeen hev, hsess, departed_self, hspawn, Task.ending?_none hend',
          Task.ending?_some hend]
        by_cases hsid : sid' = sid
        · simp [report?, ServerEventV2.sessionEnd?, hsid]
        · simp [report?, ServerEventV2.sessionEnd?, hsid]
    | lose hend hwhy =>
        exfalso
        rcases hwhy with rfl | hclosed
        · exact hend (hdrop t ht)
        · rw [hopen] at hclosed
          cases hclosed
    | @leave sid' reason' hend hr hend' hspawn hdep hev =>
        -- from now on the task owes it
        have hev' : o₀.shared.events =
            { p.shared.events with queue := p.shared.events.queue ++ [] } := by
          rw [hev, List.append_nil]
        rw [reports_observedSeen hev', hdep, hspawn, hr, Task.ending?_none hend,
          Task.ending?_some hend']
        by_cases hsid : sid' = sid
        · simp [hsid, List.count_singleton]
        · simp [hsid]
    | quiet hend hend' hspawn hwhy hev hno =>
        rw [reports_observedSeen hev, hno, owed_eq_zero hspawn, Task.ending?_none hend,
          Task.ending?_none hend']
        rcases hwhy with hnone | hdep
        · rw [hnone]
          split_ifs <;> simp
        · rw [hdep]
          simp
  env := by
    rintro p e s ts - he
    rw [owed_eq_zero (envStep_ending he).1]

/-- Along a run that drops no future about to report, departures, reports and
tasks about to report agree. -/
theorem endBalance_run {X : Externals} {pin : Option String} {verify : Bool} {cap : ℕ}
    {p : ObservedPool} (hrun : Run (observedStep X) DropsNoEnding (.init pin verify cap) p)
    (hopen : p.shared.events.closed = false) (sid : String) (reason : SessionEndReasonV2) :
    (departures p.log sid).count (some reason) =
      (reports p sid ++ awaiting p sid).count reason := by
  have hback : Run (observedStep X)
      (fun q l => DropsNoEnding q l ∧ q.shared.events.closed = false)
      (.init pin verify cap) p :=
    hrun.strengthen_back hopen fun _ _ _ hst => open_before hst
  have hbal := (endBalance_stable X sid reason).run
    (by simp [TaskPool.Balanced, ObservedPool.init]) hback
  unfold departures reports awaiting
  rw [List.count_append, count_filterMap_eq_sum, count_filterMap_eq_sum,
    count_filterMap_eq_sum]
  simpa [TaskPool.Balanced] using hbal

theorem eq_singleton_of_count {l : List SessionEndReasonV2} {x : SessionEndReasonV2}
    (h : ∀ y, l.count y = if x = y then 1 else 0) : l = [x] := by
  rw [← List.perm_singleton, List.perm_iff_count]
  intro y
  rw [h y, List.count_singleton]
  simp

/-- **`SessionEnd` is reported exactly once**, in every run that drops no
future about to send it, as long as the application takes events. -/
theorem session_end_once {X : Externals} {pin : Option String} {verify : Bool} {cap : ℕ}
    {p : ObservedPool} (hrun : Run (observedStep X) DropsNoEnding (.init pin verify cap) p)
    (hopen : p.shared.events.closed = false) : SessionEndOnce p := by
  have hcount := endBalance_run hrun hopen
  have hdep : ∀ {sid reason}, .inr (.left sid reason) ∈ p.log →
      departures p.log sid = [reason] := by
    intro sid reason hm
    have honce := (departedOnce_reach hrun.reach sid).once
    rw [← mem_departures] at hm
    obtain ⟨x, hx⟩ := List.length_eq_one_iff.mp
      (Nat.le_antisymm honce (List.length_pos_of_mem hm))
    rw [hx, List.mem_singleton] at hm
    rw [hx, hm]
  constructor
  · intro sid reason hm
    apply eq_singleton_of_count
    intro y
    rw [← hcount sid y, hdep hm, List.count_singleton]
    simp
  · intro sid hm
    rw [List.eq_nil_iff_forall_not_mem]
    intro y hy
    have hpos := List.count_pos_iff.mpr hy
    rw [← hcount sid y, hdep hm] at hpos
    simp at hpos

/-! ## §5  The lost event -/

/-- The only file of an accepted request has been uploaded by task 1, which
has emptied the slot and is about to send the `SessionEnd`. -/
def lastFileUploaded : List ServerLabel :=
  Sample.prepare 0 ++
    [.env .recv, .env (.decide 0 (.accept ["file1"])), .task 0 .decision, .task 0 .go,
      .env (.upload Sample.sender
        [("sessionId", Externals.unary.uuid 0), ("fileId", "file1"),
          ("token", Externals.unary.uuid 1)]),
      .task 1 .go, .task 1 .go, .task 1 .go, .env .recv, .env (.answerTarget 0 .stream),
      .task 1 .go, .task 1 (.saved .success), .task 1 .go]

/-- The upload goes on and reports the end of its session. -/
theorem session_end_once_uploaded : ∃ p : ObservedPool,
    departures p.log "" = [some .finished] ∧ reports p "" = [.finished] ∧ SessionEndOnce p := by
  obtain ⟨p, hp, hcheck⟩ := exists_of_exec_any (observedStep .unary)
    (.init none true 16) (lastFileUploaded ++ [.task 1 .go])
    (fun p => decide (departures p.log "" = [some .finished] ∧ reports p "" = [.finished] ∧
      p.shared.events.closed = false)) rfl
  obtain ⟨hleft, hrep, hopen⟩ := of_decide_eq_true hcheck
  have hrun : Run (observedStep .unary) DropsNoEnding (.init none true 16) p :=
    run_of_exec hp (by decide)
  exact ⟨p, hleft, hrep, session_end_once hrun hopen⟩

/-- The sender disconnects while the handler waits to send: the slot is free,
no task is left, and nothing was reported. -/
theorem session_end_lost :
    ¬ ∀ (X : Externals) (pin : Option String) (verify : Bool) (cap : ℕ) (p : ObservedPool),
      Reach (observedStep X) (.init pin verify cap) p → p.shared.events.closed = false →
        SessionEndOnce p := by
  intro h
  obtain ⟨p, hp, hcheck⟩ := exists_of_exec_any (observedStep .unary)
    (.init none true 16) (lastFileUploaded ++ [.task 1 .drop])
    (fun p => decide (departures p.log "" = [some .finished] ∧
      reports p "" ++ awaiting p "" = [] ∧ p.shared.events.closed = false)) rfl
  obtain ⟨hleft, hnone, hopen⟩ := of_decide_eq_true hcheck
  have hm : .inr (.left "" (some .finished)) ∈ p.log :=
    mem_departures.mp (by rw [hleft]; exact List.mem_singleton_self _)
  have honce := (h .unary none true 16 p (reach_of_exec hp) hopen).peer hm
  rw [hnone] at honce
  cases honce

end FireBoxTransfer

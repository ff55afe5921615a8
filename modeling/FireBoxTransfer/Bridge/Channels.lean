import FireBoxTransfer.Bridge.Stack

/-!
# Decision channels of the server

Which handler waits on which decision channel, and which events name a
channel. A channel is created by the handler that claims the slot, and the
event that offers it to the application carries the session of that handler,
whatever happens to the handler later.
-/

namespace FireBoxTransfer

open TaskPool Runs

/-! ## §1  What one step does -/

/-- The session and the channel on which an event wants a decision. -/
def ServerEventV2.responder : ServerEventV2 → Option (String × ℕ)
  | .prepareUpload sessionId _ _ _ _ decisionTx => some (sessionId, decisionTx)
  | _ => none

/-- The events of `c'` are those of `c` and possibly some that satisfy `q`. -/
def EventsFrom (q : ServerEventV2 → Prop) (c c' : EventChannel) : Prop :=
  ∀ event ∈ c'.queue, event ∈ c.queue ∨ q event

theorem EventsFrom.refl (q : ServerEventV2 → Prop) (c : EventChannel) : EventsFrom q c c :=
  fun _ h => .inl h

theorem EventsFrom.send {q : ServerEventV2 → Prop} {c c' : EventChannel}
    {event : ServerEventV2} (h : c.send event = some (.ok c')) (hq : q event) :
    EventsFrom q c c' := by
  intro e he
  rw [EventChannel.send_eq_ok h, List.mem_append, List.mem_singleton] at he
  rcases he with he | rfl
  · exact .inl he
  · exact .inr hq

/-- What one step of task `t` does to the channels: it may create one, and
then it waits on it; it may offer the one it waits on. -/
structure Channels (s : ServerV2) (t : Task) (o : Step) : Prop where
  decisions : o.shared.decisions = s.decisions ∨
    o.shared.decisions = s.decisions ++ [.waiting]
  holding : ∀ u ∈ o.task :: o.spawned, ∀ ctx rx, u.role = .holding ctx rx →
    t.role = .holding ctx rx ∨
      (rx = s.decisions.length ∧ o.shared.decisions = s.decisions ++ [.waiting])
  events : EventsFrom (fun event => ∀ sid tx, event.responder = some (sid, tx) →
    ∃ ctx, t.role = .holding ctx tx ∧ ctx.sessionId = sid) s.events o.shared.events

/-- The handlers of the other endpoints have no decision channels. -/
theorem Channels.of_none {s : ServerV2} {t : Task} {o : Step}
    (hd : o.shared.decisions = s.decisions)
    (hh : ∀ u ∈ o.task :: o.spawned, ∀ ctx rx, u.role = .holding ctx rx →
      t.role = .holding ctx rx)
    (he : EventsFrom (fun event => event.responder = none) s.events o.shared.events) :
    Channels s t o where
  decisions := .inl hd
  holding u hu ctx rx hr := .inl (hh u hu ctx rx hr)
  events event hev := by
    rcases he event hev with h | h
    · exact .inl h
    · refine .inr fun sid tx hr => ?_
      rw [h] at hr
      cases hr

/-- A role that waits for a decision comes from one that does or from a
claim. -/
theorem Move.holding_new {X : Externals} {s s' : ServerV2} {r r' q : Role} {a : Act}
    {rs : List Role} {seen : List Seen} (h : Move X s r a s' r' rs seen)
    (hq : q ∈ r' :: rs) {ctx : PrepareCtx} {rx : ℕ} (hh : q = .holding ctx rx) :
    r = .holding ctx rx ∨ r = .claiming ctx := by
  subst hh
  cases h with
  | rest _ hr' =>
      rw [List.mem_singleton] at hq
      subst hq
      cases hr'
  | claim =>
      rw [List.mem_singleton] at hq
      cases hq
      exact .inr rfl
  | hold =>
      rw [List.mem_singleton] at hq
      cases hq
      exact .inl rfl
  | _ => simp at hq

/-- A step of a task that does not wait to claim the slot. -/
theorem Channels.of_move {X : Externals} {s : ServerV2} {t : Task} {a : Act} {o : Step}
    (h : taskStep X s t a = some o) (ht : ∀ ctx, t.role ≠ .claiming ctx)
    (hd : o.shared.decisions = s.decisions)
    (he : EventsFrom (fun event => event.responder = none) s.events o.shared.events) :
    Channels s t o := by
  apply Channels.of_none hd _ he
  intro u hu ctx rx hr
  have hnew := (taskStep_move h).holding_new (mem_roles hu) hr
  exact hnew.resolve_right (ht ctx)

/-- What `cancel` sends wants no decision. -/
def SendsPlain (t : Task) : Prop :=
  ∀ event, t = .cancel (.send event) → event.responder = none

theorem taskStep_channels {X : Externals} {s : ServerV2} {t : Task} {a : Act} {o : Step}
    (h : taskStep X s t a = some o) (ht : SendsPlain t) : Channels s t o := by
  cases taskStep_cases h with
  | conflict | dropClaim => exact .of_none rfl (by simp [Task.role, answeredRole]) (.refl _ _)
  | claimed =>
      refine ⟨.inr rfl, fun u hu ctx' rx hr => ?_, .refl _ _⟩
      obtain rfl := List.mem_singleton.mp hu
      cases hr
      exact .inr ⟨rfl, rfl⟩
  | @asked ctx rx events hsend =>
      refine ⟨.inl rfl, fun u hu ctx' rx' hr => ?_, .send hsend fun sid tx hr => ?_⟩
      · obtain rfl := List.mem_singleton.mp hu
        exact .inl hr
      · cases hr
        exact ⟨ctx, rfl, rfl⟩
  -- the other events want no decision
  | offered hsend | endSent hsend | abortSent hsend | guardEndSent hsend =>
      exact .of_move h (by simp [Task.role]) rfl (.send hsend rfl)
  | newsSent hsend => exact .of_move h (by simp [Task.role]) rfl (.send hsend (ht _ rfl))
  | @dropCancel pc => exact .of_move h (by cases pc <;> simp [Task.role]) rfl (.refl _ _)
  | _ => exact .of_move h (by simp [Task.role]) rfl (.refl _ _)

/-- What `cancel` goes on to send is the end of a session or the news of a
cancel. -/
theorem taskStep_sends {X : Externals} {s : ServerV2} {t : Task} {a : Act} {o : Step}
    {q : ServerEventV2 → Prop} (hend : ∀ sid, q (.sessionEnd sid .cancelled))
    (hreceived : ∀ ip sid, q (.cancelReceived ip sid)) (h : taskStep X s t a = some o) :
    ∀ u ∈ o.task :: o.spawned, ∀ event, u = .cancel (.send event) → q event := by
  intro u hu event he
  subst he
  cases taskStep_cases h with
  | cancelledActive => cases List.mem_singleton.mp hu; exact hend _
  | notActive => cases List.mem_singleton.mp hu; exact hreceived _ _
  | _ => simp [abandonPending] at hu

theorem taskStep_plain {X : Externals} {s : ServerV2} {t : Task} {a : Act} {o : Step}
    (h : taskStep X s t a = some o) : ∀ u ∈ o.task :: o.spawned, SendsPlain u :=
  taskStep_sends (fun _ => rfl) (fun _ _ => rfl) h

/-! ## §2  The channels of a reachable server -/

/-- The channel `tx` exists, and a handler that waits on it handles the
request of session `sid`. -/
def Named (p : ServerPool) (sid : String) (tx : ℕ) : Prop :=
  tx < p.shared.decisions.length ∧
    ∀ t ∈ p.tasks, ∀ ctx, t.role = .holding ctx tx → ctx.sessionId = sid

structure Channelled (X : Externals) (p : ServerPool) : Prop where
  owned : (ownership X).Holds p
  plain : ∀ t ∈ p.tasks, SendsPlain t
  bound : ∀ t ∈ p.tasks, ∀ ctx rx, t.role = .holding ctx rx →
    rx < p.shared.decisions.length
  offered : ∀ event ∈ p.shared.events.queue, ∀ sid tx, event.responder = some (sid, tx) →
    Named p sid tx

/-- At most one task waits for a decision. -/
theorem holding_unique {X : Externals} {p : ServerPool} (h : (ownership X).Holds p)
    {t u : Task} (ht : t ∈ p.tasks) (hu : u ∈ p.tasks) {ctx ctx' : PrepareCtx} {rx rx' : ℕ}
    (hrt : t.role = .holding ctx rx) (hru : u.role = .holding ctx' rx') :
    ctx = ctx' ∧ rx = rx' := by
  obtain ⟨i, hi⟩ := List.getElem?_of_mem ht
  obtain ⟨j, hj⟩ := List.getElem?_of_mem hu
  by_cases hij : i = j
  · subst hij
    obtain rfl := Option.some.inj (hi.symm.trans hj)
    rw [hrt] at hru
    cases hru
    exact ⟨rfl, rfl⟩
  · have hapart : OwnershipApart t.role u.role := h.pair hij hi hj
    rcases hapart.settles with hs | hs
    · rw [hrt] at hs; cases hs
    · rw [hru] at hs; cases hs

theorem resolve_eq_some {α : Type} {channels channels' : List (Oneshot α)} {tx : ℕ}
    {answer : Oneshot α} :
    resolve channels tx answer = some channels' ↔
      channels[tx]? = some .waiting ∧ channels' = channels.set tx answer := by
  unfold resolve
  split
  · simp_all [eq_comm]
  · rename_i hne
    simp_all

theorem resolve_length {α : Type} {channels channels' : List (Oneshot α)} {tx : ℕ}
    {answer : Oneshot α} (h : resolve channels tx answer = some channels') :
    channels'.length = channels.length := by
  rw [(resolve_eq_some.mp h).2, List.length_set]

theorem envStep_channels {s s' : ServerV2} {e : Env} {ts : List Task}
    (h : envStep s e = some (s', ts)) :
    s'.decisions.length = s.decisions.length ∧
      EventsFrom (fun event => event.responder = none) s.events s'.events ∧
      ∀ t ∈ ts, SendsPlain t ∧ ∀ ctx rx, t.role ≠ .holding ctx rx := by
  have hrole : ∀ t ∈ ts, ∀ ctx rx, t.role ≠ .holding ctx rx := by
    intro t ht ctx rx hr
    have hidle := (envStep_quiet h).2 t ht
    rw [hr] at hidle
    cases hidle
  cases envStep_cases h with
  | prepareUpload | upload | cancel | cancelV2Session =>
      refine ⟨rfl, .refl _ _, fun t ht => ⟨?_, hrole t ht⟩⟩
      obtain rfl := List.mem_singleton.mp ht
      simp [SendsPlain]
  | registered hsend => exact ⟨rfl, .send hsend rfl, by simp⟩
  | recv hq =>
      refine ⟨rfl, fun event he => .inl ?_, by simp⟩
      rw [hq]
      exact List.mem_cons_of_mem _ he
  | close => exact ⟨rfl, fun event he => absurd he List.not_mem_nil, by simp⟩
  | decide hr | dropDecision hr => exact ⟨resolve_length hr, .refl _ _, by simp⟩
  | registerLost | answerTarget | dropTarget => exact ⟨rfl, .refl _ _, by simp⟩

theorem mem_advance_new {p : ServerPool} {i : ℕ} {o : Step} {u : Task}
    (h : u ∈ (p.advance i o).tasks) : u ∈ o.task :: o.spawned ∨ u ∈ p.tasks := by
  rcases mem_advance h with rfl | h | h
  · exact .inl List.mem_cons_self
  · exact .inr h
  · exact .inl (List.mem_cons_of_mem _ h)

variable {X : Externals} {p p' : ServerPool} {sid : String} {tx : ℕ}

/-- A named channel stays named. -/
theorem Named.step (hp : Channelled X p) {l : ServerLabel}
    (hst : serverStep X p l = some p') (h : Named p sid tx) : Named p' sid tx := by
  cases l with
  | task i a =>
      obtain ⟨t, o, ht, ho, rfl⟩ := poolStep_task.mp hst
      have hc := taskStep_channels ho (hp.plain t (List.mem_of_getElem? ht))
      constructor
      · show tx < o.shared.decisions.length
        rcases hc.decisions with hd | hd <;> rw [hd]
        · exact h.1
        · rw [List.length_append]
          exact Nat.lt_add_right _ h.1
      · intro u hu ctx hr
        rcases mem_advance_new hu with hu | hu
        · rcases hc.holding u hu ctx tx hr with hold | ⟨rfl, -⟩
          · exact h.2 t (List.mem_of_getElem? ht) ctx hold
          · exact absurd h.1 (Nat.lt_irrefl _)
        · exact h.2 u hu ctx hr
  | env e =>
      obtain ⟨s, ts, he, rfl⟩ := poolStep_env.mp hst
      obtain ⟨hlen, -, hnew⟩ := envStep_channels he
      constructor
      · show tx < s.decisions.length
        rw [hlen]
        exact h.1
      · intro u hu ctx hr
        rcases List.mem_append.mp hu with hu | hu
        · exact h.2 u hu ctx hr
        · exact absurd hr ((hnew u hu).2 ctx tx)

theorem Channelled.step (hp : Channelled X p) {l : ServerLabel}
    (hst : serverStep X p l = some p') (hown : (ownership X).Holds p') :
    Channelled X p' := by
  cases l with
  | task i a =>
      obtain ⟨t, o, ht, ho, rfl⟩ := poolStep_task.mp hst
      have htm := List.mem_of_getElem? ht
      have hc := taskStep_channels ho (hp.plain t htm)
      have hle : p.shared.decisions.length ≤ o.shared.decisions.length := by
        rcases hc.decisions with hd | hd
        · exact Nat.le_of_eq (congrArg List.length hd.symm)
        · rw [hd, List.length_append]
          exact Nat.le_add_right _ _
      refine ⟨hown, ?_, ?_, ?_⟩
      · intro u hu
        rcases mem_advance_new hu with hu | hu
        · exact taskStep_plain ho u hu
        · exact hp.plain u hu
      · intro u hu ctx rx hr
        show rx < o.shared.decisions.length
        rcases mem_advance_new hu with hu | hu
        · rcases hc.holding u hu ctx rx hr with hold | ⟨rfl, hd⟩
          · exact Nat.lt_of_lt_of_le (hp.bound t htm ctx rx hold) hle
          · rw [hd]
            simp
        · exact Nat.lt_of_lt_of_le (hp.bound u hu ctx rx hr) hle
      · intro event he sid tx hr
        apply Named.step hp hst
        rcases hc.events event he with hold | hnew
        · exact hp.offered event hold sid tx hr
        · -- the event of the task that waits on this very channel
          obtain ⟨ctx, hrole, rfl⟩ := hnew sid tx hr
          refine ⟨hp.bound t htm ctx tx hrole, fun u hu ctx' hr' => ?_⟩
          rw [(holding_unique hp.owned htm hu hrole hr').1]
  | env e =>
      obtain ⟨s, ts, he, rfl⟩ := poolStep_env.mp hst
      obtain ⟨hlen, hev, hnew⟩ := envStep_channels he
      refine ⟨hown, ?_, ?_, ?_⟩
      · intro u hu
        rcases List.mem_append.mp hu with hu | hu
        · exact hp.plain u hu
        · exact (hnew u hu).1
      · intro u hu ctx rx hr
        show rx < s.decisions.length
        rw [hlen]
        rcases List.mem_append.mp hu with hu | hu
        · exact hp.bound u hu ctx rx hr
        · exact absurd hr ((hnew u hu).2 ctx rx)
      · intro event hmem sid tx hr
        apply Named.step hp hst
        rcases hev event hmem with hold | hnone
        · exact hp.offered event hold sid tx hr
        · rw [hnone] at hr
          cases hr

theorem channelled_reach {pin : Option String} {verify : Bool} {cap : ℕ}
    (h : Reach (serverStep X) (.init pin verify cap) p) : Channelled X p := by
  induction h with
  | refl =>
      have hnil : ∀ t ∈ (ServerPool.init pin verify cap).tasks, False := fun t ht => by
        cases ht
      refine ⟨ownership_reach .refl, ?_, ?_, ?_⟩
      · exact fun t ht => (hnil t ht).elim
      · exact fun t ht => (hnil t ht).elim
      · intro event he
        cases he
  | snoc hrun _ hst ih => exact ih.step hst (ownership_reach (hrun.snoc trivial hst))

end FireBoxTransfer

import Mathlib.Data.List.Pairwise
import FireBoxTransfer.Core.ServerV2SessionEnd

/-!
# `PrepareUploadAborted`: what the application hears of a request

`prepare_upload` arms its guard, sends `PrepareUpload` and waits for the
decision. The drop of the armed guard tells the application that the request
is over. Every claimed session is settled in one way: it is activated, it is
refused, or its end is announced; that is an account without conditions.
That the application had heard of the session before is not: the guard is
already armed while the handler waits for room in the channel, and a request
dropped there is announced as aborted without ever having been offered.
-/

namespace FireBoxTransfer

open TaskPool Runs

/-! ## §1  What the observer notes down -/

/-- An event was put into the channel; a handler read a decision that leaves
nothing to transfer; a clean-up found the channel closed. -/
inductive AskSeen where
  | sent (event : ServerEventV2)
  | refused (sessionId : String)
  | unheard (sessionId : String)
deriving DecidableEq

def askSeen (s : ServerV2) (t : Task) (o : Step) : List AskSeen :=
  (sentEvents s o.shared).map .sent ++
    match t, o.task with
    | .prepareUpload (.select ctx _), .prepareUpload (.clear _ _) => [.refused ctx.sessionId]
    | .cleanup (.aborted sessionId), _ =>
        if s.events.closed then [.unheard sessionId] else []
    | _, _ => []

abbrev AskedPool : Type := Pool ServerV2 Task (Seen ⊕ AskSeen)

def AskedPool.init (pin : Option String) (verifyChecksums : Bool) (cap : ℕ) : AskedPool :=
  ⟨.start pin verifyChecksums cap, [], []⟩

abbrev askedStep (X : Externals) : AskedPool → ServerLabel → Option AskedPool :=
  ((serverMachine X).observe askSeen).poolStep

/-- `PrepareUpload` of this session was put into the channel. -/
def Asked (log : List (Seen ⊕ AskSeen)) (sid : String) : Prop :=
  ∃ ip info cert files decisionTx,
    .inr (.sent (.prepareUpload sid ip info cert files decisionTx)) ∈ log

/-- `PrepareUploadAborted` of this session was put into the channel. -/
def abortNote (sid : String) : Seen ⊕ AskSeen := .inr (.sent (.prepareUploadAborted sid))

def abort? : Seen ⊕ AskSeen → Option String
  | .inr (.sent (.prepareUploadAborted sid)) => some sid
  | _ => none

/-- The decision declines the request, or accepts none of the offered files. -/
def PrepareUploadDecisionV2.Refuses (files : AssocMap String FileDto) :
    PrepareUploadDecisionV2 → Prop
  | .decline => True
  | .accept acceptedIds => ∀ id ∈ files.keys, id ∉ acceptedIds

/-- The application refused the request it was asked about. -/
def RequestRefused (log : List (Seen ⊕ AskSeen)) (s : ServerV2) (sid : String) : Prop :=
  ∃ ip info cert files decisionTx decision,
    .inr (.sent (.prepareUpload sid ip info cert files decisionTx)) ∈ log ∧
      s.decisions[decisionTx]? = some (.sent decision) ∧ decision.Refuses files

/-- The session that a task still has to settle: its handler, from the claim
of the slot until it has read a refusal, or the clean-up of its guard. -/
def Task.settling : Task → Option String
  | .prepareUpload (.send ctx _) | .prepareUpload (.select ctx _)
  | .prepareUpload (.activate ctx _) => some ctx.sessionId
  | .cleanup (.clear sessionId) | .cleanup (.aborted sessionId) => some sessionId
  | _ => none

/-- **The protocol of `prepare_upload`**: the abort of a session is announced
after the application was asked about it, at most once, and only if the
session does not become active; and a request that the application was asked
about and did not refuse, that is over without an active session, is
announced as aborted as long as the application takes events. -/
structure AbortProtocol (p : AskedPool) : Prop where
  after : ∀ {before later sid}, p.log = before ++ abortNote sid :: later → Asked before sid
  once : (p.log.filterMap abort?).Nodup
  inactive : ∀ {sid}, abortNote sid ∈ p.log → .inl (.activated sid) ∉ p.log
  followed : ∀ {sid}, Asked p.log sid → .inl (.activated sid) ∉ p.log →
    ¬ RequestRefused p.log p.shared sid → (∀ t ∈ p.tasks, t.settling ≠ some sid) →
    p.shared.events.closed = false → abortNote sid ∈ p.log

/-- The session whose `PrepareUpload` a handler waits to send. -/
def Task.asking : Task → Option String
  | .prepareUpload (.send ctx _) => some ctx.sessionId
  | _ => none

/-- The step does not drop a request that waits to send its `PrepareUpload`. -/
def DropsNoAsking (p : AskedPool) : ServerLabel → Prop
  | .task i .drop => ∀ t ∈ p.tasks[i]?, t.asking = none
  | _ => True

instance (p : AskedPool) : ∀ l, Decidable (DropsNoAsking p l)
  | .task i .drop => inferInstanceAs (Decidable (∀ t ∈ p.tasks[i]?, t.asking = none))
  | .task _ .go | .task _ (.body _) | .task _ .decision | .task _ .cancelled
  | .task _ (.saved _) | .env _ => .isTrue trivial

/-! ## §2  What one step does -/

/-- The events of a request's protocol. -/
def ServerEventV2.prepares : ServerEventV2 → Bool
  | .prepareUpload .. | .prepareUploadAborted _ => true
  | _ => false

/-- `cancel` sends nothing about a request that is not active yet. -/
def Task.CancelOnly (t : Task) : Prop := ∀ event, t = .cancel (.send event) →
  event.prepares = false

/-- Nothing to settle, and no event of the protocol to send. -/
def Task.Rests (t : Task) : Prop := t.settling = none ∧ t.CancelOnly

/-- What a step has to do with the sessions that are not settled yet. -/
inductive AskMove (X : Externals) (s : ServerV2) (t : Task) (a : Act) (o : Step) : Prop
  | rest {l} (ht : t.settling = none) (ho : ∀ u ∈ o.task :: o.spawned, u.Rests)
      (hseen : ∀ sid, .claimed sid ∉ o.seen ∧ .activated sid ∉ o.seen)
      (he : o.shared.events = { s.events with queue := s.events.queue ++ l })
      (hl : ∀ event ∈ l, event.prepares = false)
  | claim {ctx rx} (ht : t.settling = none) (ho : o.task = .prepareUpload (.send ctx rx))
      (hsp : o.spawned = []) (hseen : o.seen = [.claimed ctx.sessionId])
      (he : o.shared.events = s.events)
  | ask {ctx rx} (ht : t = .prepareUpload (.send ctx rx))
      (ho : o.task = .prepareUpload (.select ctx rx)) (hsp : o.spawned = [])
      (hseen : o.seen = [])
      (he : o.shared.events =
        { s.events with queue := s.events.queue ++ [prepareEvent X ctx rx] })
  | accept {ctx rx files} (ht : t = .prepareUpload (.select ctx rx))
      (ho : o.task = .prepareUpload (.activate ctx files)) (hsp : o.spawned = [])
      (hseen : o.seen = []) (he : o.shared.events = s.events)
  | refuse {ctx rx rejected decision} (ht : t = .prepareUpload (.select ctx rx))
      (ho : o.task = .prepareUpload (.clear ctx rejected)) (hsp : o.spawned = [])
      (hseen : o.seen = []) (he : o.shared.events = s.events)
      (hdec : s.decisions[rx]? = some (.sent decision))
      (href : decision.Refuses ctx.payload.files)
  | abandon {ctx : PrepareCtx}
      (ht : (∃ rx, t = .prepareUpload (.send ctx rx) ∧ (a = .drop ∨ s.events.closed = true)) ∨
        (∃ rx, t = .prepareUpload (.select ctx rx)) ∨
          ∃ files, t = .prepareUpload (.activate ctx files))
      (ho : (∃ result, o.task = .answered result) ∨ o.task = .dropped)
      (hsp : o.spawned = [.cleanup (.clear ctx.sessionId)]) (hseen : o.seen = [])
      (he : o.shared.events = s.events)
  | activate {ctx files result} (ht : t = .prepareUpload (.activate ctx files))
      (ho : o.task = .answered result) (hsp : o.spawned = [])
      (hseen : o.seen = [.activated ctx.sessionId]) (he : o.shared.events = s.events)
  | free {sid} (ht : t = .cleanup (.clear sid)) (ho : o.task = .cleanup (.aborted sid))
      (hsp : o.spawned = []) (hseen : o.seen = []) (he : o.shared.events = s.events)
  | abort {sid} (ht : t = .cleanup (.aborted sid)) (ho : o.task = .completed)
      (hsp : o.spawned = []) (hseen : o.seen = []) (hopen : s.events.closed = false)
      (he : o.shared.events =
        { s.events with queue := s.events.queue ++ [.prepareUploadAborted sid] })
  | unheard {sid} (ht : t = .cleanup (.aborted sid)) (ho : o.task = .completed)
      (hsp : o.spawned = []) (hseen : o.seen = []) (hclosed : s.events.closed = true)
      (he : o.shared.events = s.events)

theorem EventChannel.open_of_send {c c' : EventChannel} {event : ServerEventV2}
    (h : c.send event = some (.ok c')) : c.closed = false := by
  rw [EventChannel.send] at h
  split_ifs at h with hclosed
  · cases h
  · simpa using hclosed

/-- A request none of whose files is accepted has been refused. -/
theorem refuses_of_isEmpty {X : Externals} {minted : ℕ} {files : AssocMap String FileDto}
    {ids : List String} (h : (acceptedFiles X minted files ids).isEmpty = true) :
    (PrepareUploadDecisionV2.accept ids).Refuses files := by
  intro id hid hmem
  obtain ⟨dto, hdto⟩ := AssocMap.mem_keys_iff.mp hid
  obtain ⟨file, hfile, -⟩ := @exists_acceptedFiles X minted _ _ _ _ hmem hdto
  simp only [AssocMap.isEmpty, List.isEmpty_iff] at h
  rw [AssocMap.get?, h] at hfile
  cases hfile

/-- A step that neither starts nor settles a session. -/
theorem AskMove.still {X : Externals} {s : ServerV2} {t : Task} {a : Act} {o : Step}
    (ht : t.settling = none) (ho : ∀ u ∈ o.task :: o.spawned, u.Rests)
    (hseen : ∀ sid, .claimed sid ∉ o.seen ∧ .activated sid ∉ o.seen)
    (he : o.shared.events = s.events) : AskMove X s t a o :=
  .rest (l := []) ht ho hseen (by rw [he, List.append_nil]) fun _ h => absurd h List.not_mem_nil

/-- A step that sends an event about something else. -/
theorem AskMove.sends {X : Externals} {s : ServerV2} {t : Task} {a : Act} {o : Step}
    {event : ServerEventV2} (ht : t.settling = none)
    (ho : ∀ u ∈ o.task :: o.spawned, u.Rests)
    (hseen : ∀ sid, .claimed sid ∉ o.seen ∧ .activated sid ∉ o.seen)
    (he : s.events.send event = some (.ok o.shared.events))
    (hno : event.prepares = false) : AskMove X s t a o := by
  refine .rest ht ho hseen (EventChannel.send_eq_ok he) fun e h => ?_
  rw [List.mem_singleton.mp h]
  exact hno

/-- **Every step of a task is one of these.** -/
theorem taskStep_askMove {X : Externals} {s : ServerV2} {t : Task} {a : Act} {o : Step}
    (honly : t.CancelOnly) (h : taskStep X s t a = some o) : AskMove X s t a o := by
  cases taskStep_cases h with
  -- a request that holds the slot
  | claimed => exact .claim rfl rfl rfl rfl rfl
  | askLost hsend =>
      exact .abandon (.inl ⟨_, rfl, .inr (EventChannel.send_eq_error hsend)⟩) (.inl ⟨_, rfl⟩)
        rfl rfl rfl
  | dropSend => exact .abandon (.inl ⟨_, rfl, .inl rfl⟩) (.inr rfl) rfl rfl rfl
  | asked hsend => exact .ask rfl rfl rfl rfl (EventChannel.send_eq_ok hsend)
  | declined hd => exact .refuse rfl rfl rfl rfl rfl hd trivial
  | acceptedNone hd hnone => exact .refuse rfl rfl rfl rfl rfl hd (refuses_of_isEmpty hnone)
  | accepted => exact .accept rfl rfl rfl rfl rfl
  | undecided | withdrawn => exact .abandon (.inr (.inl ⟨_, rfl⟩)) (.inl ⟨_, rfl⟩) rfl rfl rfl
  | dropSelect => exact .abandon (.inr (.inl ⟨_, rfl⟩)) (.inr rfl) rfl rfl rfl
  | activated => exact .activate rfl rfl rfl rfl rfl
  | dropActivate => exact .abandon (.inr (.inr ⟨_, rfl⟩)) (.inr rfl) rfl rfl rfl
  -- its clean-up
  | guardCleared => exact .free rfl rfl rfl rfl rfl
  | abortLost hsend =>
      exact .unheard rfl rfl rfl rfl (EventChannel.send_eq_error hsend) rfl
  | abortSent hsend =>
      exact .abort rfl rfl rfl rfl (EventChannel.open_of_send hsend)
        (EventChannel.send_eq_ok hsend)
  -- events about something else
  | offered hsend | endSent hsend | guardEndSent hsend =>
      exact .sends rfl (by simp [Task.Rests, Task.settling, Task.CancelOnly]) (by simp) hsend rfl
  | newsSent hsend =>
      exact .sends rfl (by simp [Task.Rests, Task.settling, Task.CancelOnly]) (by simp) hsend
        (honly _ rfl)
  | cancelledActive | notActive =>
      exact .still rfl (by simp [Task.Rests, Task.settling, Task.CancelOnly,
        ServerEventV2.prepares]) (by simp) rfl
  | _ => exact .still rfl (by simp [Task.Rests, Task.settling, Task.CancelOnly]) (by simp) rfl

/-- `cancel` keeps to its own events. -/
theorem taskStep_cancelOnly {X : Externals} {s : ServerV2} {t : Task} {a : Act} {o : Step}
    (h : taskStep X s t a = some o) : ∀ u ∈ o.task :: o.spawned, u.CancelOnly := by
  cases taskStep_cases h with
  | cancelledActive | notActive => simp [Task.CancelOnly, ServerEventV2.prepares]
  | _ => simp [Task.CancelOnly, abandonPending]

/-! ## §3  The account of a session -/

def claimed? : Seen ⊕ AskSeen → Option String
  | .inl e => e.claim?
  | _ => none

/-- How a session is settled: it is active, it was refused, or its clean-up
is over. -/
def settled? : Seen ⊕ AskSeen → Option String
  | .inl (.activated sid) | .inr (.sent (.prepareUploadAborted sid)) | .inr (.refused sid)
  | .inr (.unheard sid) => some sid
  | _ => none

/-- What an observed step of a task notes down. -/
def askedSeen (s : ServerV2) (t : Task) (o : Step) : List (Seen ⊕ AskSeen) :=
  o.seen.map .inl ++ (askSeen s t o).map .inr

theorem sentEvents_append {s s' : ServerV2} {l : List ServerEventV2}
    (he : s'.events = { s.events with queue := s.events.queue ++ l }) : sentEvents s s' = l := by
  rw [sentEvents, he]
  exact List.drop_left

theorem sentEvents_same {s s' : ServerV2} (he : s'.events = s.events) : sentEvents s s' = [] := by
  rw [sentEvents, he]
  exact List.drop_length

/-- Of a task with nothing to settle only the events are noted. -/
theorem askSeen_rest {s : ServerV2} {t : Task} {o : Step} (ht : t.settling = none) :
    askSeen s t o = (sentEvents s o.shared).map .sent := by
  unfold askSeen
  split
  · cases ht
  · cases ht
  · rw [List.append_nil]

/-- A step claims a session, goes on with one, settles one, or does none of
these. -/
theorem AskMove.account {X : Externals} {s : ServerV2} {t : Task} {a : Act} {o : Step}
    (h : AskMove X s t a o) :
    (askedSeen s t o).filterMap claimed? ++ t.settling.toList =
      (askedSeen s t o).filterMap settled? ++ (o.task :: o.spawned).filterMap Task.settling := by
  unfold askedSeen
  cases h with
  | @rest l ht ho hseen he hl =>
      have hclaimed : (o.seen.map Sum.inl ++ (l.map AskSeen.sent).map Sum.inr).filterMap claimed? =
          [] := by
        rw [List.filterMap_eq_nil_iff]
        intro x hx
        rcases List.mem_append.mp hx with hx | hx
        · obtain ⟨e, he, rfl⟩ := List.mem_map.mp hx
          cases e with
          | claimed sid => exact absurd he (hseen sid).1
          | _ => rfl
        · obtain ⟨e, -, rfl⟩ := List.mem_map.mp hx
          rfl
      have hsettled : (o.seen.map Sum.inl ++ (l.map AskSeen.sent).map Sum.inr).filterMap settled? =
          [] := by
        rw [List.filterMap_eq_nil_iff]
        intro x hx
        rcases List.mem_append.mp hx with hx | hx
        · obtain ⟨e, he, rfl⟩ := List.mem_map.mp hx
          cases e with
          | activated sid => exact absurd he (hseen sid).2
          | _ => rfl
        · rw [List.map_map] at hx
          obtain ⟨event, hevent, rfl⟩ := List.mem_map.mp hx
          have hno := hl event hevent
          cases event with
          | prepareUploadAborted => cases hno
          | _ => rfl
      have hnone : (o.task :: o.spawned).filterMap Task.settling = [] :=
        List.filterMap_eq_nil_iff.mpr fun u hu => (ho u hu).1
      rw [askSeen_rest ht, sentEvents_append he, hclaimed, hsettled, hnone, ht]
      rfl
  | claim ht ho hsp hseen he =>
      rw [askSeen_rest ht, sentEvents_same he, ht, ho, hsp, hseen]
      rfl
  | abandon ht ho hsp hseen he =>
      unfold askSeen
      rw [sentEvents_same he, hsp, hseen]
      rcases ht with ⟨rx, rfl, -⟩ | ⟨rx, rfl⟩ | ⟨files, rfl⟩ <;>
        rcases ho with ⟨result, ho⟩ | ho <;> rw [ho] <;> rfl
  | ask ht ho hsp hseen he =>
      unfold askSeen
      rw [sentEvents_append he, ht, ho, hsp, hseen]
      rfl
  | abort ht ho hsp hseen hopen he =>
      unfold askSeen
      rw [sentEvents_append he, ht, ho, hsp, hseen, hopen]
      rfl
  | unheard ht ho hsp hseen hclosed he =>
      unfold askSeen
      rw [sentEvents_same he, ht, ho, hsp, hseen, hclosed]
      rfl
  | accept ht ho hsp hseen he | refuse ht ho hsp hseen he | activate ht ho hsp hseen he
  | free ht ho hsp hseen he =>
      unfold askSeen
      rw [sentEvents_same he, ht, ho, hsp, hseen]
      rfl

/-- What arrives from outside rests. -/
theorem envStep_rests {s s' : ServerV2} {e : Env} {ts : List Task}
    (h : envStep s e = some (s', ts)) : ∀ t ∈ ts, t.Rests := by
  cases envStep_cases h with
  | prepareUpload | upload | cancel | cancelV2Session =>
      simp [Task.Rests, Task.settling, Task.CancelOnly]
  | _ => exact fun _ ht => absurd ht List.not_mem_nil

/-- What was decided stays decided. -/
theorem envStep_decided {s s' : ServerV2} {e : Env} {ts : List Task}
    (h : envStep s e = some (s', ts)) {n : ℕ} {decision : PrepareUploadDecisionV2}
    (hn : s.decisions[n]? = some (.sent decision)) :
    s'.decisions[n]? = some (.sent decision) := by
  cases envStep_cases h with
  | decide hr | dropDecision hr => exact resolve_sent hr hn
  | _ => exact hn

/-- A step may open a channel for a decision, and uses none. -/
theorem taskStep_decisions {X : Externals} {s : ServerV2} {t : Task} {a : Act} {o : Step}
    (h : taskStep X s t a = some o) : s.decisions <+: o.shared.decisions := by
  cases taskStep_cases h with
  | claimed => exact List.prefix_append _ _
  | _ => exact List.prefix_rfl

theorem taskStep_decided {X : Externals} {s : ServerV2} {t : Task} {a : Act} {o : Step}
    (h : taskStep X s t a = some o) {n : ℕ} {decision : PrepareUploadDecisionV2}
    (hn : s.decisions[n]? = some (.sent decision)) :
    o.shared.decisions[n]? = some (.sent decision) := by
  obtain ⟨opened, heq⟩ := taskStep_decisions h
  rw [← heq, List.getElem?_append_left (List.getElem?_eq_some_iff.mp hn).1]
  exact hn

section Runs

variable {X : Externals} {pin : Option String} {verify : Bool} {cap : ℕ} {p : AskedPool}

theorem cancelOnly_reach (h : Reach (askedStep X) (.init pin verify cap) p) :
    ∀ t ∈ p.tasks, t.CancelOnly := by
  refine forall_tasks_run (I := Task.CancelOnly) (fun t ht => absurd ht List.not_mem_nil) ?_ ?_ h
  · intro s t a o _ ho
    obtain ⟨o₀, ho₀, -, htask, hsp, -⟩ := observe_step.mp ho
    rw [htask, hsp]
    exact taskStep_cancelOnly ho₀
  · intro s e s' ts he u hu
    exact (envStep_rests he u hu).2

/-- The account of the claims: a claimed session is settled, or a task has
yet to settle it. -/
theorem account_stable (X : Externals) (sid : String) :
    BalanceStable (fun x => (claimed? x).toList.count sid)
      (fun x => (settled? x).toList.count sid) (fun _ => 0)
      (fun t => (Task.settling t).toList.count sid) ((serverMachine X).observe askSeen)
      (fun p _ => True ∧ ∀ t ∈ p.tasks, t.CancelOnly) where
  own := by
    rintro p i a t o ⟨-, honly⟩ ht ho
    obtain ⟨o₀, ho₀, -, htask, hsp, hseen⟩ := observe_step.mp ho
    change o.seen = askedSeen p.shared t o₀ at hseen
    have hacc := congrArg (List.count sid)
      (taskStep_askMove (honly t (List.mem_of_getElem? ht)) ho₀).account
    rw [List.count_append, List.count_append, count_filterMap_eq_sum, count_filterMap_eq_sum,
      count_filterMap_eq_sum, List.map_cons, List.sum_cons] at hacc
    rw [hseen, htask, hsp]
    change _ + 0 + _ = _ + 0 + _ + _
    omega
  env := by
    rintro p e s ts - he
    have hnone : ts.filterMap Task.settling = [] :=
      List.filterMap_eq_nil_iff.mpr fun t ht => (envStep_rests he t ht).1
    rw [← count_filterMap_eq_sum, hnone]
    rfl

/-- **Every claimed session is settled in one way**, or one task has yet to
settle it. -/
theorem account_reach (h : Reach (askedStep X) (.init pin verify cap) p) (sid : String) :
    (p.log.filterMap claimed?).count sid =
      (p.log.filterMap settled?).count sid + (p.tasks.filterMap Task.settling).count sid := by
  have hbal := (account_stable X sid).run (by simp [TaskPool.Balanced, AskedPool.init])
    (h.strengthen fun _ => cancelOnly_reach)
  rw [count_filterMap_eq_sum, count_filterMap_eq_sum, count_filterMap_eq_sum]
  simpa [TaskPool.Balanced] using hbal

/-- A session is claimed once. -/
theorem claims_nodup (h : Reach (askedStep X) (.init pin verify cap) p) :
    (p.log.filterMap claimed?).Nodup := by
  have hreach : Reach (serverStep X) (.init pin verify cap) p.forget :=
    run_forget (fun _ _ => True) h
  have hclaims : p.log.filterMap claimed? = p.forget.log.filterMap Seen.claim? := by
    rw [Pool.forget, List.filterMap_filterMap]
    congr 1
    funext x
    cases x <;> rfl
  rw [hclaims]
  exact (ownership_reach hreach).glob.once

theorem settled_nodup (h : Reach (askedStep X) (.init pin verify cap) p) :
    (p.log.filterMap settled?).Nodup := by
  rw [List.nodup_iff_count_le_one]
  intro sid
  have hacc := account_reach h sid
  have hclaims := List.nodup_iff_count_le_one.mp (claims_nodup h) sid
  omega

/-- A session is settled in one way. -/
theorem settled_unique (h : Reach (askedStep X) (.init pin verify cap) p)
    {x y : Seen ⊕ AskSeen} (hx : x ∈ p.log) (hy : y ∈ p.log) {sid : String}
    (hxs : settled? x = some sid) (hys : settled? y = some sid) : x = y := by
  by_contra hne
  let apart (x y : Seen ⊕ AskSeen) : Prop :=
    ∀ sid, settled? x = some sid → ∀ sid', settled? y = some sid' → sid ≠ sid'
  have : Std.Symm apart := ⟨fun _ _ h sid hsid sid' hsid' => (h sid' hsid' sid hsid).symm⟩
  have hpair : p.log.Pairwise apart := List.pairwise_filterMap.mp (settled_nodup h)
  exact hpair.forall hx hy hne sid hxs sid hys rfl

end Runs

/-! ## §4  What the application was asked -/

/-- A handler that awaits a decision has asked for it; a refusal was decided
by the application; a clean-up that found the channel closed did. -/
structure AskHistory (X : Externals) (p : AskedPool) : Prop where
  claimed : ∀ {sid}, Asked p.log sid → sid ∈ p.log.filterMap claimed?
  asked : ∀ {ctx rx}, Task.prepareUpload (.select ctx rx) ∈ p.tasks →
    .inr (.sent (prepareEvent X ctx rx)) ∈ p.log
  refused : ∀ {sid}, .inr (.refused sid) ∈ p.log → RequestRefused p.log p.shared sid
  unheard : ∀ {sid}, .inr (.unheard sid) ∈ p.log → p.shared.events.closed = true

theorem refused_mem {s : ServerV2} {t : Task} {o : Step} {sid : String}
    (h : .inr (.refused sid) ∈ askedSeen s t o) : ∃ ctx rx ctx' rejected,
      t = .prepareUpload (.select ctx rx) ∧ o.task = .prepareUpload (.clear ctx' rejected) ∧
        ctx.sessionId = sid := by
  unfold askedSeen askSeen at h
  split at h
  · rename_i ctx rx ctx' rejected ho
    have hsid : sid = ctx.sessionId := by simpa using h
    exact ⟨ctx, rx, ctx', rejected, rfl, ho, hsid.symm⟩
  · split_ifs at h <;> simp at h
  · simp at h

theorem unheard_mem {s : ServerV2} {t : Task} {o : Step} {sid : String}
    (h : .inr (.unheard sid) ∈ askedSeen s t o) : s.events.closed = true := by
  unfold askedSeen askSeen at h
  split at h
  · simp at h
  · split_ifs at h with hclosed
    · exact hclosed
    · simp at h
  · simp at h

theorem sent_mem {s : ServerV2} {t : Task} {o : Step} {event : ServerEventV2} :
    .inr (.sent event) ∈ askedSeen s t o ↔ event ∈ sentEvents s o.shared := by
  unfold askedSeen askSeen
  split
  · simp
  · split_ifs <;> simp
  · simp

/-- Only the clean-up of a guard announces an abort. -/
theorem AskMove.abort_mem {X : Externals} {s : ServerV2} {t : Task} {a : Act} {o : Step}
    (h : AskMove X s t a o) {sid : String} (hm : abortNote sid ∈ askedSeen s t o) :
    t = .cleanup (.aborted sid) ∧ s.events.closed = false := by
  have hsent := sent_mem.mp hm
  cases h with
  | rest _ _ _ he hl =>
      rw [sentEvents_append he] at hsent
      exact absurd (hl _ hsent) (by simp [ServerEventV2.prepares])
  | ask _ _ _ _ he =>
      rw [sentEvents_append he, List.mem_singleton] at hsent
      cases hsent
  | abort ht _ _ _ hopen he =>
      rw [sentEvents_append he, List.mem_singleton] at hsent
      cases hsent
      exact ⟨ht, hopen⟩
  | claim _ _ _ _ he | accept _ _ _ _ he | refuse _ _ _ _ he | abandon _ _ _ _ he
  | activate _ _ _ _ he | free _ _ _ _ he | unheard _ _ _ _ _ he =>
      rw [sentEvents_same he] at hsent
      cases hsent

/-- The application is asked about a session by its handler. -/
theorem AskMove.asked_mem {X : Externals} {s : ServerV2} {t : Task} {a : Act} {o : Step}
    (h : AskMove X s t a o) {sid : String} (hm : Asked (askedSeen s t o) sid) :
    t.settling = some sid := by
  obtain ⟨ip, info, cert, files, tx, hm⟩ := hm
  have hsent := sent_mem.mp hm
  cases h with
  | rest _ _ _ he hl =>
      rw [sentEvents_append he] at hsent
      exact absurd (hl _ hsent) (by simp [ServerEventV2.prepares])
  | ask ht _ _ _ he =>
      rw [sentEvents_append he, List.mem_singleton] at hsent
      cases hsent
      rw [ht]
      rfl
  | abort _ _ _ _ _ he =>
      rw [sentEvents_append he, List.mem_singleton] at hsent
      cases hsent
  | claim _ _ _ _ he | accept _ _ _ _ he | refuse _ _ _ _ he | abandon _ _ _ _ he
  | activate _ _ _ _ he | free _ _ _ _ he | unheard _ _ _ _ _ he =>
      rw [sentEvents_same he] at hsent
      cases hsent

/-- A handler comes to await a decision by asking for it. -/
theorem taskStep_select {X : Externals} {s : ServerV2} {t : Task} {a : Act} {o : Step}
    (h : taskStep X s t a = some o) {ctx : PrepareCtx} {rx : ℕ}
    (hu : Task.prepareUpload (.select ctx rx) ∈ o.task :: o.spawned) :
    .inr (.sent (prepareEvent X ctx rx)) ∈ askedSeen s t o := by
  cases taskStep_cases h with
  | asked hsend =>
      cases List.mem_singleton.mp hu
      rw [sent_mem, sentEvents_append (EventChannel.send_eq_ok hsend)]
      exact List.mem_singleton_self _
  | _ => simp [abandonPending] at hu

theorem RequestRefused.mono {log log' : List (Seen ⊕ AskSeen)} {s s' : ServerV2} {sid : String}
    (h : RequestRefused log s sid) (hlog : log ⊆ log')
    (hsent : ∀ {n : ℕ} {decision : PrepareUploadDecisionV2},
      s.decisions[n]? = some (.sent decision) →
        s'.decisions[n]? = some (.sent decision)) : RequestRefused log' s' sid := by
  obtain ⟨ip, info, cert, files, tx, decision, hm, hdec, href⟩ := h
  exact ⟨ip, info, cert, files, tx, decision, hlog hm, hsent hdec, href⟩

theorem Asked.mono {log log' : List (Seen ⊕ AskSeen)} {sid : String} (h : Asked log sid)
    (hlog : log ⊆ log') : Asked log' sid := by
  obtain ⟨ip, info, cert, files, tx, hm⟩ := h
  exact ⟨ip, info, cert, files, tx, hlog hm⟩

theorem asked_of_event {X : Externals} {log : List (Seen ⊕ AskSeen)} {ctx : PrepareCtx} {rx : ℕ}
    (h : .inr (.sent (prepareEvent X ctx rx)) ∈ log) : Asked log ctx.sessionId :=
  ⟨_, _, _, _, _, h⟩

/-- A closed channel stays closed. -/
theorem closed_after {X : Externals} {s : ServerV2} {t : Task} {a : Act} {o : Step}
    (h : taskStep X s t a = some o) (hclosed : s.events.closed = true) :
    o.shared.events.closed = true := by
  by_contra hopen
  rw [(taskStep_endMove h).open_before (Bool.not_eq_true _ ▸ hopen)] at hclosed
  cases hclosed

theorem askHistory_reach {X : Externals} {pin : Option String} {verify : Bool} {cap : ℕ}
    {p : AskedPool} (h : Reach (askedStep X) (.init pin verify cap) p) : AskHistory X p := by
  refine (h.strengthen fun _ hq => hq).invariant (I := AskHistory X) ?_ ?_
  · constructor <;> simp [AskedPool.init, Asked]
  rintro q l q' hq ⟨-, hreach⟩ hst
  have honly := cancelOnly_reach hreach
  cases l with
  | env e =>
      obtain ⟨s, ts, he, rfl⟩ := poolStep_env.mp hst
      refine ⟨hq.claimed, fun hu => ?_, fun hm => ?_, fun hm => ?_⟩
      · rcases List.mem_append.mp hu with hu | hu
        · exact hq.asked hu
        · cases (envStep_rests he _ hu).1
      · exact (hq.refused hm).mono (List.Subset.refl _) (envStep_decided he)
      · have hclosed := hq.unheard hm
        show s.events.closed = true
        by_contra hopen
        rw [(envStep_ending he).2 (Bool.not_eq_true _ ▸ hopen)] at hclosed
        cases hclosed
  | task i a =>
      obtain ⟨t, o, ht, ho, rfl⟩ := poolStep_task.mp hst
      obtain ⟨o₀, ho₀, hs, htask, hsp, hseen⟩ := observe_step.mp ho
      change o.seen = askedSeen q.shared t o₀ at hseen
      have hmove := taskStep_askMove (honly t (List.mem_of_getElem? ht)) ho₀
      have hlog : q.log ⊆ q.log ++ o.seen := List.subset_append_left _ _
      have hkept : ∀ {n : ℕ} {decision : PrepareUploadDecisionV2},
          q.shared.decisions[n]? = some (.sent decision) →
            o.shared.decisions[n]? = some (.sent decision) := by
        intro n decision hn
        rw [hs]
        exact taskStep_decided ho₀ hn
      refine ⟨?_, fun hu => ?_, fun hm => ?_, fun hm => ?_⟩
      · rintro sid ⟨ip, info, cert, files, tx, hm⟩
        show sid ∈ (q.log ++ o.seen).filterMap claimed?
        rw [List.filterMap_append]
        refine List.mem_append_left _ ?_
        rcases List.mem_append.mp hm with hm | hm
        · exact hq.claimed ⟨ip, info, cert, files, tx, hm⟩
        · -- the handler that asks has claimed the slot
          have hset := hmove.asked_mem ⟨ip, info, cert, files, tx, hseen ▸ hm⟩
          have hpos : 0 < (q.tasks.filterMap Task.settling).count sid :=
            List.count_pos_iff.mpr (List.mem_filterMap.mpr ⟨t, List.mem_of_getElem? ht, hset⟩)
          have hacc := account_reach hreach sid
          exact List.count_pos_iff.mp (by omega)
      · rcases mem_advance hu with heq | hu | hu
        · refine List.mem_append_right _ ?_
          rw [hseen]
          exact taskStep_select ho₀ (List.mem_cons.mpr (.inl (heq.trans htask)))
        · exact hlog (hq.asked hu)
        · refine List.mem_append_right _ ?_
          rw [hseen]
          exact taskStep_select ho₀ (List.mem_cons_of_mem _ (hsp ▸ hu))
      · rcases List.mem_append.mp hm with hm | hm
        · exact (hq.refused hm).mono hlog hkept
        · -- the handler read the decision it had asked for
          rw [hseen] at hm
          obtain ⟨ctx, rx, ctx', rejected, rfl, hclear, rfl⟩ := refused_mem hm
          have hasked := hq.asked (List.mem_of_getElem? ht)
          cases hmove with
          | @refuse ctx₂ rx₂ rejected₂ decision ht₂ ho₂ _ _ _ hdec href =>
              cases ht₂
              exact ⟨_, _, _, _, _, decision, hlog hasked, hkept hdec, href⟩
          | rest hrest => cases hrest
          | claim hrest => cases hrest
          | abandon _ hend =>
              rcases hend with ⟨result, hend⟩ | hend <;> rw [hend] at hclear <;> cases hclear
          | accept ht₂ ho₂ => rw [ho₂] at hclear; cases hclear
          | ask ht₂ | activate ht₂ | free ht₂ | abort ht₂ | unheard ht₂ => cases ht₂
      · rcases List.mem_append.mp hm with hm | hm
        · show o.shared.events.closed = true
          rw [hs]
          exact closed_after ho₀ (hq.unheard hm)
        · show o.shared.events.closed = true
          rw [hs]
          rw [hseen] at hm
          exact closed_after ho₀ (unheard_mem hm)

/-! ## §5  The protocol -/

/-- As long as no request is dropped that waits to ask: whoever has to settle
a session after that has asked the application, unless the channel is
closed. -/
structure AskedFirst (p : AskedPool) : Prop where
  heard : ∀ {t sid}, t ∈ p.tasks → t.settling = some sid → t.asking = none →
    Asked p.log sid ∨ p.shared.events.closed = true
  after : ∀ {before later sid}, p.log = before ++ abortNote sid :: later → Asked before sid

/-- Whoever a step leaves to settle a session has asked the application. -/
theorem AskMove.heard {X : Externals} {s : ServerV2} {t u : Task} {a : Act} {o : Step}
    (h : AskMove X s t a o) {log : List (Seen ⊕ AskSeen)} {sid : String}
    (hdrop : a = .drop → t.asking = none)
    (ht : ∀ {sid}, t.settling = some sid → t.asking = none →
      Asked log sid ∨ s.events.closed = true)
    (hu : u ∈ o.task :: o.spawned) (hsid : u.settling = some sid) (hasking : u.asking = none) :
    Asked (log ++ askedSeen s t o) sid ∨ s.events.closed = true := by
  -- a task that goes on had asked before
  have hkept : t.settling = some sid → t.asking = none →
      Asked (log ++ askedSeen s t o) sid ∨ s.events.closed = true := fun hset hask =>
    (ht hset hask).imp_left fun hasked => hasked.mono (List.subset_append_left _ _)
  have hone : ∀ {v}, o.task = v → o.spawned = [] → u = v := by
    intro v hv hsp
    rw [hv, hsp] at hu
    exact List.mem_singleton.mp hu
  cases h with
  | rest _ ho => rw [(ho u hu).1] at hsid; cases hsid
  | claim _ ho hsp => cases hone ho hsp; cases hasking
  | @ask ctx rx _ ho hsp _ he =>
      cases hone ho hsp
      obtain rfl := Option.some.inj hsid
      have hsent : prepareEvent X ctx rx ∈ sentEvents s o.shared := by
        rw [sentEvents_append he]
        exact List.mem_singleton_self _
      exact .inl (asked_of_event (List.mem_append_right _ (sent_mem.mpr hsent)))
  | accept hsel ho hsp =>
      cases hone ho hsp
      subst hsel
      exact hkept hsid rfl
  | refuse _ ho hsp => cases hone ho hsp; cases hsid
  | @abandon ctx hwho ho hsp =>
      have huc : u = .cleanup (.clear ctx.sessionId) := by
        rw [hsp] at hu
        rcases List.mem_cons.mp hu with rfl | hu
        · rcases ho with ⟨result, ho⟩ | ho <;> rw [ho] at hsid <;> cases hsid
        · exact List.mem_singleton.mp hu
      rw [huc] at hsid
      rcases hwho with ⟨rx, rfl, rfl | hclosed⟩ | ⟨rx, rfl⟩ | ⟨files, rfl⟩
      · cases hdrop rfl
      · exact .inr hclosed
      · exact hkept hsid rfl
      · exact hkept hsid rfl
  | activate _ ho hsp => cases hone ho hsp; cases hsid
  | free hcl ho hsp =>
      cases hone ho hsp
      subst hcl
      exact hkept hsid rfl
  | abort _ ho hsp | unheard _ ho hsp => cases hone ho hsp; cases hsid

section Guarded

variable {X : Externals} {pin : Option String} {verify : Bool} {cap : ℕ} {p : AskedPool}

theorem askedFirst_run (h : Run (askedStep X) DropsNoAsking (.init pin verify cap) p) :
    AskedFirst p := by
  refine (h.strengthen fun _ hq => cancelOnly_reach hq.reach).invariant (I := AskedFirst) ?_ ?_
  · constructor <;> simp [AskedPool.init]
  rintro q l q' hq ⟨hok, honly⟩ hst
  cases l with
  | env e =>
      obtain ⟨s, ts, he, rfl⟩ := poolStep_env.mp hst
      refine ⟨fun hu hsid hasking => ?_, hq.after⟩
      rcases List.mem_append.mp hu with hu | hu
      · refine (hq.heard hu hsid hasking).imp_right fun hclosed => ?_
        show s.events.closed = true
        by_contra hopen
        rw [(envStep_ending he).2 (Bool.not_eq_true _ ▸ hopen)] at hclosed
        cases hclosed
      · rw [(envStep_rests he _ hu).1] at hsid
        cases hsid
  | task i a =>
      obtain ⟨t, o, ht, ho, rfl⟩ := poolStep_task.mp hst
      obtain ⟨o₀, ho₀, hs, htask, hsp, hseen⟩ := observe_step.mp ho
      change o.seen = askedSeen q.shared t o₀ at hseen
      have hmem := List.mem_of_getElem? ht
      have hmove := taskStep_askMove (honly t hmem) ho₀
      have hdrop : a = .drop → t.asking = none := by
        rintro rfl
        exact hok t ht
      have hclosed : q.shared.events.closed = true → o.shared.events.closed = true := by
        rw [hs]
        exact closed_after ho₀
      constructor
      · intro u sid hu hsid hasking
        show Asked (q.log ++ o.seen) sid ∨ o.shared.events.closed = true
        have hnew : u ∈ o₀.task :: o₀.spawned →
            Asked (q.log ++ o.seen) sid ∨ o.shared.events.closed = true := by
          intro hu
          rw [hseen]
          exact (hmove.heard hdrop (hq.heard hmem) hu hsid hasking).imp_right hclosed
        rcases mem_advance hu with heq | hu | hu
        · exact hnew (List.mem_cons.mpr (.inl (heq.trans htask)))
        · exact (hq.heard hu hsid hasking).imp
            (fun hasked => hasked.mono (List.subset_append_left _ _)) hclosed
        · exact hnew (List.mem_cons_of_mem _ (hsp ▸ hu))
      · intro before later sid heq
        -- an abort of this step is announced by a clean-up that was heard of
        have hlast : abortNote sid ∈ o.seen → Asked q.log sid := by
          intro hm
          rw [hseen] at hm
          obtain ⟨rfl, hopen⟩ := hmove.abort_mem hm
          rcases hq.heard hmem rfl rfl with hasked | hclosed'
          · exact hasked
          · rw [hopen] at hclosed'
            cases hclosed'
        rcases List.append_eq_append_iff.mp (show q.log ++ o.seen = _ from heq) with
          ⟨rest, hbefore, hrest⟩ | ⟨rest, hbefore, hrest⟩
        · rw [hbefore]
          refine (hlast ?_).mono (List.subset_append_left _ _)
          rw [hrest]
          exact List.mem_append_right _ List.mem_cons_self
        · cases rest with
          | nil =>
              rw [List.append_nil] at hbefore
              rw [← hbefore]
              refine hlast ?_
              rw [← List.nil_append o.seen, ← hrest]
              exact List.mem_cons_self
          | cons x rest =>
              obtain ⟨rfl, -⟩ := List.cons.inj hrest
              exact hq.after hbefore

/-- **`PrepareUploadAborted` keeps the protocol**, in every run that drops no
request waiting to send its `PrepareUpload`. -/
theorem abort_protocol (h : Run (askedStep X) DropsNoAsking (.init pin verify cap) p) :
    AbortProtocol p where
  after := (askedFirst_run h).after
  once := by
    rw [List.nodup_iff_count_le_one]
    intro sid
    have hnodup := List.nodup_iff_count_le_one.mp (settled_nodup h.reach) sid
    rw [List.count_filterMap] at hnodup ⊢
    refine Nat.le_trans (List.countP_mono_left fun x _ hx => ?_) hnodup
    have habort : abort? x = some sid := eq_of_beq hx
    unfold abort? at habort
    split at habort <;> cases habort
    exact beq_self_eq_true _
  inactive hm hact := by
    cases settled_unique h.reach hm hact rfl rfl
  followed := by
    intro sid hasked hact hrefused hover hopen
    have hist := askHistory_reach h.reach
    have hacc := account_reach h.reach sid
    have hclaims := List.count_pos_iff.mpr (hist.claimed hasked)
    have htasks : (p.tasks.filterMap Task.settling).count sid = 0 := by
      rw [List.count_eq_zero]
      intro hm
      obtain ⟨t, ht, hset⟩ := List.mem_filterMap.mp hm
      exact hover t ht hset
    obtain ⟨x, hx, hsettled⟩ := List.mem_filterMap.mp
      (List.count_pos_iff.mp (show 0 < (p.log.filterMap settled?).count sid by omega))
    -- of the ways to be settled only the announced abort is left
    unfold settled? at hsettled
    split at hsettled <;> cases hsettled
    · exact absurd hx hact
    · exact hx
    · exact absurd (hist.refused hx) hrefused
    · rw [hist.unheard hx] at hopen
      cases hopen

end Guarded

/-- The sender disconnects while the application decides, and hears no more of
the request; the application does. -/
theorem abort_protocol_disconnected : ∃ p : AskedPool, Asked p.log "" ∧
    abortNote "" ∈ p.log ∧ AbortProtocol p := by
  obtain ⟨p, hp, hcheck⟩ := exists_of_exec_any (askedStep .unary) (.init none true 16)
    (Sample.prepare 0 ++ [.task 0 .drop, .task 1 .go, .task 1 .go])
    (fun p => decide (p.log = [.inl (.claimed ""),
      .inr (.sent (.prepareUpload "" Sample.sender.ip Sample.info none Sample.payload.files 0)),
      abortNote ""])) rfl
  have hlog := of_decide_eq_true hcheck
  have hrun : Run (askedStep .unary) DropsNoAsking (.init none true 16) p :=
    run_of_exec hp (by decide)
  refine ⟨p, ⟨Sample.sender.ip, Sample.info, none, Sample.payload.files, 0, ?_⟩, ?_,
    abort_protocol hrun⟩
  · simp [hlog]
  · simp [hlog]

/-! ## §6  An abort out of nowhere -/

/-- Registrations fill the event channel, so that the handler of task 0 waits
for room; its sender disconnects, and the application takes an event. -/
def droppedWhileAsking : List ServerLabel :=
  List.replicate 16 (.env (.register Sample.sender.ip Sample.info)) ++
    [.env (.prepareUpload Sample.sender []), .task 0 .go, .task 0 (.body (.ok Sample.payload)),
      .task 0 .go, .task 0 .drop, .env .recv, .task 1 .go, .task 1 .go]

/-- The application is told that a request was aborted that it never heard
of. -/
theorem abort_of_unasked :
    ¬ ∀ (X : Externals) (pin : Option String) (verify : Bool) (cap : ℕ) (p : AskedPool),
      Reach (askedStep X) (.init pin verify cap) p → AbortProtocol p := by
  intro h
  obtain ⟨p, hp, hcheck⟩ := exists_of_exec_any (askedStep .unary) (.init none true 16)
    droppedWhileAsking (fun p => decide (p.log = [.inl (.claimed ""), abortNote ""])) rfl
  have hlog : p.log = [.inl (.claimed "")] ++ abortNote "" :: [] := of_decide_eq_true hcheck
  obtain ⟨ip, info, cert, files, tx, hm⟩ :=
    (h .unary none true 16 p (reach_of_exec hp)).after hlog
  rw [List.mem_singleton] at hm
  cases hm

end FireBoxTransfer

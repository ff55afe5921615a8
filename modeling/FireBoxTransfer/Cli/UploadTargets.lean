import FireBoxTransfer.Cli.ServerEvents

/-!
# Who has the target of an upload

A channel for the target of an upload is created when the upload is started, and
only the handler of this upload has the receiving end. Once it is done with the
channel nobody has it any more.
-/

namespace FireBoxTransfer

open TaskPool Runs

/-! ## §1  What one step does to the targets -/

/-- The handler of the upload has the target, or will have it. -/
def Task.holdsTarget (tx : ℕ) : Task → Bool
  | .upload (.send ctx) | .upload (.target ctx) | .upload (.save ctx _ _) => ctx.targetRx = tx
  | _ => false

theorem Task.holdsTarget_role {t : Task} {tx : ℕ} (h : t.holdsTarget tx = true) :
    ∃ sid fid, t.role = .uploading sid fid := by
  unfold Task.holdsTarget at h
  split at h
  · exact ⟨_, _, rfl⟩
  · exact ⟨_, _, rfl⟩
  · exact ⟨_, _, rfl⟩
  · cases h

/-- A task whose role is not that of an upload at work has no target. -/
theorem Task.holdsTarget_eq_false {t : Task} (h : ∀ sid fid, t.role ≠ .uploading sid fid)
    (tx : ℕ) : t.holdsTarget tx = false := by
  rw [← Bool.not_eq_true]
  intro ht
  obtain ⟨sid, fid, hr⟩ := holdsTarget_role ht
  exact h sid fid hr

/-- What one step of task `t` does to the channels: it may create one, and then it
has it; it keeps the one it had, or is done with it. -/
structure TargetUse (s : ServerV2) (t : Task) (o : Step) : Prop where
  targets : o.shared.targets = s.targets ∨ o.shared.targets = s.targets ++ [.waiting]
  holding : ∀ tx, o.task.holdsTarget tx = true → t.holdsTarget tx = true ∨
    (tx = s.targets.length ∧ o.shared.targets = s.targets ++ [.waiting])
  events : ∀ sid fid file tx, .fileUpload sid fid file tx ∈ o.shared.events.queue →
    .fileUpload sid fid file tx ∈ s.events.queue ∨ t.holdsTarget tx = true

section Tasks

variable {X : Externals} {s s' : ServerV2} {t u : Task} {a : Act} {o : Step} {tx : ℕ}

/-- What a step appends to the queue, its task had the target of. -/
theorem Emits.held {new : List ServerEventV2} (he : Emits X t o new) {sid fid : String}
    {file : FileDto} (hm : .fileUpload sid fid file tx ∈ new) : t.holdsTarget tx = true := by
  cases he with
  | upload ht =>
      cases List.mem_singleton.mp hm
      rw [ht]
      exact decide_eq_true rfl
  | nothing => cases hm
  | _ => cases List.mem_singleton.mp hm

/-- The tasks that a step leaves behind have no target. -/
theorem taskStep_spawned_targets (h : taskStep X s t a = some o) (hu : u ∈ o.spawned) (tx : ℕ) :
    u.holdsTarget tx = false := by
  cases taskStep_cases h with
  | askLost | undecided | withdrawn | dropSend | dropSelect | dropActivate | dropOffer
  | dropTarget | dropSave =>
      obtain rfl := List.mem_singleton.mp hu
      rfl
  | _ => cases hu

theorem taskStep_targetUse (h : taskStep X s t a = some o) (hnews : t.CancelNews) :
    TargetUse s t o := by
  have hevents : ∀ sid fid file tx, .fileUpload sid fid file tx ∈ o.shared.events.queue →
      .fileUpload sid fid file tx ∈ s.events.queue ∨ t.holdsTarget tx = true := by
    intro sid fid file tx hm
    obtain ⟨new, hemits, happ⟩ := taskStep_emits hnews h
    rw [happ, List.mem_append] at hm
    exact hm.imp_right hemits.held
  cases taskStep_cases h with
  | begun =>
      -- the channel is created with the start of the upload
      exact ⟨.inr rfl, fun tx htx => .inr ⟨(of_decide_eq_true htx).symm, rfl⟩, hevents⟩
  | offered | targeted => exact ⟨.inl rfl, fun _ htx => .inl htx, hevents⟩
  | _ => exact ⟨.inl rfl, fun _ htx => absurd htx Bool.false_ne_true, hevents⟩

theorem TargetUse.length_le (h : TargetUse s t o) :
    s.targets.length ≤ o.shared.targets.length := by
  rcases h.targets with ht | ht
  · exact Nat.le_of_eq (congrArg List.length ht.symm)
  · rw [ht, List.length_append]
    exact Nat.le_add_right _ _

/-- A channel that its task has was there before the step, or is the new one. -/
theorem TargetUse.lt (h : TargetUse s t o) (hold : t.holdsTarget tx = true → tx < s.targets.length)
    (htx : o.task.holdsTarget tx = true) : tx < o.shared.targets.length := by
  rcases h.holding tx htx with ht | ⟨rfl, hnew⟩
  · exact Nat.lt_of_lt_of_le (hold ht) h.length_le
  · rw [hnew, List.length_append]
    exact Nat.lt_add_one _

theorem envStep_targets {e : Env} {ts : List Task} (h : envStep s e = some (s', ts)) :
    s'.targets.length = s.targets.length ∧
      (∀ sid fid file tx, .fileUpload sid fid file tx ∈ s'.events.queue →
        .fileUpload sid fid file tx ∈ s.events.queue) ∧
      ∀ u ∈ ts, ∀ tx, u.holdsTarget tx = false := by
  have hts : ∀ u ∈ ts, ∀ tx, u.holdsTarget tx = false := by
    intro u hu
    refine Task.holdsTarget_eq_false fun sid fid hr => ?_
    have hidle := (envStep_quiet h).2 u hu
    rw [hr] at hidle
    cases hidle
  cases envStep_cases h with
  | registered hsend =>
      refine ⟨rfl, fun _ _ _ _ hm => ?_, hts⟩
      rw [EventChannel.send_eq_ok hsend, List.mem_append] at hm
      rcases hm with hm | hm
      · exact hm
      · cases List.mem_singleton.mp hm
  | recv hq =>
      refine ⟨rfl, fun _ _ _ _ hm => ?_, hts⟩
      rw [hq]
      exact List.mem_cons_of_mem _ hm
  | close => exact ⟨rfl, fun _ _ _ _ hm => absurd hm List.not_mem_nil, hts⟩
  | answerTarget hr | dropTarget hr => exact ⟨resolve_length hr, fun _ _ _ _ hm => hm, hts⟩
  | _ => exact ⟨rfl, fun _ _ _ _ hm => hm, hts⟩

end Tasks

/-! ## §2  The targets of a reachable server -/

/-- Targets that are announced or held exist, and each one has at most one holder. -/
def targetHolders : Assertion ServerV2 Task Seen where
  glob _ s := ∀ sid fid file tx, .fileUpload sid fid file tx ∈ s.events.queue →
    tx < s.targets.length
  loc _ s t := t.CancelNews ∧ ∀ tx, t.holdsTarget tx = true → tx < s.targets.length
  pair t u := ∀ tx, t.holdsTarget tx = true → u.holdsTarget tx = false

theorem targetHolders_stable (X : Externals) :
    targetHolders.Stable (serverMachine X) (fun _ _ => True) where
  symm := by
    intro t u h tx hu
    rw [← Bool.not_eq_true]
    intro ht
    rw [h tx ht] at hu
    cases hu
  own := by
    rintro p i a t o hp - ht ho
    obtain ⟨hnews, hbound⟩ := hp.loc ht
    have huse := taskStep_targetUse ho hnews
    constructor
    · intro sid fid file tx hm
      rcases huse.events sid fid file tx hm with hold | hheld
      · exact Nat.lt_of_lt_of_le (hp.glob sid fid file tx hold) huse.length_le
      · exact Nat.lt_of_lt_of_le (hbound tx hheld) huse.length_le
    · intro u hu
      refine ⟨taskStep_cancelNews ho u hu, fun tx htx => ?_⟩
      rcases List.mem_cons.mp hu with rfl | hu
      · exact huse.lt (hbound tx) htx
      · rw [taskStep_spawned_targets ho hu] at htx
        cases htx
  frame := by
    rintro p i j a t u o hp - ht ho - hu
    have huse := taskStep_targetUse ho (hp.loc ht).1
    refine ⟨(hp.loc hu).1, fun tx htx => ?_⟩
    exact Nat.lt_of_lt_of_le ((hp.loc hu).2 tx htx) huse.length_le
  apart := by
    rintro p i j a t u o hp - ht ho hji hu v hv tx htx
    have huse := taskStep_targetUse ho (hp.loc ht).1
    rcases List.mem_cons.mp hv with rfl | hv
    · rcases huse.holding tx htx with hold | ⟨rfl, -⟩
      · exact hp.pair (Ne.symm hji) ht hu tx hold
      · -- nobody had the new channel
        rw [← Bool.not_eq_true]
        intro hu'
        exact absurd ((hp.loc hu).2 _ hu') (Nat.lt_irrefl _)
    · rw [taskStep_spawned_targets ho hv] at htx
      cases htx
  fork := by
    rintro p i a t o - - - ho
    rw [List.pairwise_cons]
    constructor
    · exact fun u hu tx _ => taskStep_spawned_targets ho hu tx
    · refine List.pairwise_of_forall_mem_list fun u hu v _ tx htx => ?_
      rw [taskStep_spawned_targets ho hu] at htx
      cases htx
  env := by
    rintro p e s ts hp - he
    obtain ⟨hlen, hev, hts⟩ := envStep_targets he
    refine ⟨?_, ?_, ?_, ?_, ?_⟩
    · intro sid fid file tx hm
      rw [hlen]
      exact hp.glob sid fid file tx (hev sid fid file tx hm)
    · intro i u hu
      refine ⟨(hp.loc hu).1, fun tx htx => ?_⟩
      rw [hlen]
      exact (hp.loc hu).2 tx htx
    · intro u hu
      refine ⟨envStep_cancelNews he u hu, fun tx htx => ?_⟩
      rw [hts u hu] at htx
      cases htx
    · intro i u hu v hv tx htx
      rw [hts v hv] at htx
      cases htx
    · refine List.pairwise_of_forall_mem_list fun u hu v _ tx htx => ?_
      rw [hts u hu] at htx
      cases htx

theorem targetHolders_reach {X : Externals} {pin : Option String} {verify : Bool} {cap : ℕ}
    {p : ServerPool} (h : Reach (serverStep X) (.init pin verify cap) p) :
    targetHolders.Holds p := by
  refine (targetHolders_stable X).run (Assertion.holds_nil ?_) h
  intro sid fid file tx hm
  cases hm

/-! ## §3  A target that nobody has -/

/-- The channel exists, and no handler has it any more. -/
def Unheld (c : ServerPool) (tx : ℕ) : Prop :=
  tx < c.shared.targets.length ∧ ∀ t ∈ c.tasks, t.holdsTarget tx = false

theorem Unheld.step {X : Externals} {c c' : ServerPool} {l : ServerLabel} {tx : ℕ}
    (h : Unheld c tx) (hc : targetHolders.Holds c) (hst : serverStep X c l = some c') :
    Unheld c' tx := by
  cases l with
  | task i a =>
      obtain ⟨t, o, ht, ho, rfl⟩ := poolStep_task.mp hst
      have huse := taskStep_targetUse ho (hc.loc ht).1
      refine ⟨Nat.lt_of_lt_of_le h.1 huse.length_le, fun u hu => ?_⟩
      rcases mem_advance hu with rfl | hu | hu
      · rw [← Bool.not_eq_true]
        intro htx
        rcases huse.holding tx htx with hold | ⟨rfl, -⟩
        · rw [h.2 t (List.mem_of_getElem? ht)] at hold
          cases hold
        · exact absurd h.1 (Nat.lt_irrefl _)
      · exact h.2 u hu
      · exact taskStep_spawned_targets ho hu tx
  | env e =>
      obtain ⟨s, ts, he, rfl⟩ := poolStep_env.mp hst
      obtain ⟨hlen, -, hts⟩ := envStep_targets he
      refine ⟨?_, fun u hu => ?_⟩
      · show tx < s.targets.length
        rw [hlen]
        exact h.1
      · rcases List.mem_append.mp hu with hu | hu
        · exact h.2 u hu
        · exact hts u hu tx

theorem targets_length_step {X : Externals} {c c' : ServerPool} {l : ServerLabel}
    (hc : targetHolders.Holds c) (hst : serverStep X c l = some c') :
    c.shared.targets.length ≤ c'.shared.targets.length := by
  cases l with
  | task i a =>
      obtain ⟨t, o, ht, ho, rfl⟩ := poolStep_task.mp hst
      exact (taskStep_targetUse ho (hc.loc ht).1).length_le
  | env e =>
      obtain ⟨s, ts, he, rfl⟩ := poolStep_env.mp hst
      exact Nat.le_of_eq (envStep_targets he).1.symm

/-- A target whose file was saved is not held by anyone. -/
theorem unheld_saved {X : Externals} {c c' : ServerPool} {i : ℕ} {result : SaveResult}
    {ctx : UploadCtx} {target : FileUploadTarget} {sha : Option String}
    (hc : targetHolders.Holds c)
    (ht : c.tasks[i]? = some (.upload (.save ctx target sha)))
    (hst : serverStep X c (.task i (.saved result)) = some c') : Unheld c' ctx.targetRx := by
  obtain ⟨t, o, ht', ho, rfl⟩ := poolStep_task.mp hst
  obtain rfl := Option.some.inj (ht.symm.trans ht')
  have hheld : (Task.upload (.save ctx target sha)).holdsTarget ctx.targetRx = true :=
    decide_eq_true rfl
  change taskStep X c.shared (.upload (.save ctx target sha)) (.saved result) = some o at ho
  have huse := taskStep_targetUse ho (hc.loc ht).1
  refine ⟨Nat.lt_of_lt_of_le ((hc.loc ht).2 _ hheld) huse.length_le, fun u hu => ?_⟩
  obtain ⟨j, hj⟩ := List.getElem?_of_mem hu
  rcases getElem?_advance ht hj with ⟨-, rfl⟩ | ⟨hji, hold⟩ | ⟨k, -, hk⟩
  · have hfinish : o.task = .upload (.finish ctx result) := by
      change uploadStep c.shared (.save ctx target sha) (.saved result) = some o at ho
      simp only [uploadStep] at ho
      split_ifs at ho
      obtain rfl := Option.some.inj ho
      rfl
    rw [hfinish]
    rfl
  · exact hc.pair (Ne.symm hji) ht hold _ hheld
  · exact taskStep_spawned_targets ho (List.mem_of_getElem? hk) _

end FireBoxTransfer

import FireBoxTransfer.Framework.Runs

/-!
# Task pools: shared state, concurrent tasks, a history

A machine is a step function of one task against the shared state, and a
step function of the environment. A pool holds the shared state, every task
ever started (a finished task stays in the pool at its final point) and the
observations made so far. One step of the pool is one step of one task,
which may leave new tasks behind, or one step of the environment.
-/

namespace TaskPool

open Runs

variable {S T A E O : Type*}

/-! ## §1  Machines and pools -/

/-- What one step of a task leaves behind: the shared state, the task at its
next point, the tasks it started, and what an observer of the step sees. -/
structure Outcome (S T O : Type*) where
  shared : S
  task : T
  spawned : List T := []
  seen : List O := []

structure Machine (S T A E O : Type*) where
  step : S → T → A → Option (Outcome S T O)
  env : S → E → Option (S × List T)

structure Pool (S T O : Type*) where
  shared : S
  tasks : List T
  log : List O

inductive Label (A E : Type*) where
  | task (i : ℕ) (a : A)
  | env (e : E)
deriving DecidableEq, Repr

/-- The pool after a task at index `i` took a step with outcome `o`. -/
def Pool.advance (p : Pool S T O) (i : ℕ) (o : Outcome S T O) : Pool S T O where
  shared := o.shared
  tasks := p.tasks.set i o.task ++ o.spawned
  log := p.log ++ o.seen

/-- The pool after the environment changed the shared state to `s` and
started the tasks `ts`. -/
def Pool.enter (p : Pool S T O) (s : S) (ts : List T) : Pool S T O where
  shared := s
  tasks := p.tasks ++ ts
  log := p.log

def Machine.poolStep (M : Machine S T A E O) (p : Pool S T O) :
    Label A E → Option (Pool S T O)
  | .task i a =>
      (p.tasks[i]?).bind fun t => (M.step p.shared t a).map (p.advance i)
  | .env e => (M.env p.shared e).map fun r => p.enter r.1 r.2

/-! ## §2  One step of a pool -/

theorem poolStep_task {M : Machine S T A E O} {p p' : Pool S T O} {i : ℕ} {a : A} :
    M.poolStep p (.task i a) = some p' ↔
      ∃ t o, p.tasks[i]? = some t ∧ M.step p.shared t a = some o ∧
        p' = p.advance i o := by
  constructor
  · intro h
    obtain ⟨t, ht, h⟩ := Option.bind_eq_some_iff.mp h
    obtain ⟨o, ho, rfl⟩ := Option.map_eq_some_iff.mp h
    exact ⟨t, o, ht, ho, rfl⟩
  · rintro ⟨t, o, ht, ho, rfl⟩
    simp [Machine.poolStep, ht, ho]

theorem poolStep_env {M : Machine S T A E O} {p p' : Pool S T O} {e : E} :
    M.poolStep p (.env e) = some p' ↔
      ∃ s ts, M.env p.shared e = some (s, ts) ∧ p' = p.enter s ts := by
  constructor
  · intro h
    obtain ⟨⟨s, ts⟩, he, rfl⟩ := Option.map_eq_some_iff.mp h
    exact ⟨s, ts, he, rfl⟩
  · rintro ⟨s, ts, he, rfl⟩
    simp [Machine.poolStep, he]

/-- A task of the pool after a step is the task that moved, one of the
others, or one that the step started. -/
theorem getElem?_advance {p : Pool S T O} {i j : ℕ} {t u : T} {o : Outcome S T O}
    (hi : p.tasks[i]? = some t) (hu : (p.advance i o).tasks[j]? = some u) :
    (j = i ∧ u = o.task) ∨ (j ≠ i ∧ p.tasks[j]? = some u) ∨
      (∃ k, j = p.tasks.length + k ∧ o.spawned[k]? = some u) := by
  have hlen : i < p.tasks.length := (List.getElem?_eq_some_iff.mp hi).1
  by_cases hj : j < p.tasks.length
  · rw [Pool.advance, List.getElem?_append_left (by simpa using hj)] at hu
    by_cases hji : j = i
    · subst hji
      rw [List.getElem?_set_self hlen] at hu
      exact .inl ⟨rfl, (Option.some.inj hu).symm⟩
    · rw [List.getElem?_set_ne (Ne.symm hji)] at hu
      exact .inr (.inl ⟨hji, hu⟩)
  · rw [Pool.advance, List.getElem?_append_right (by simpa using hj)] at hu
    rw [List.length_set] at hu
    exact .inr (.inr ⟨j - p.tasks.length, by omega, hu⟩)

theorem mem_advance {p : Pool S T O} {i : ℕ} {u : T} {o : Outcome S T O}
    (h : u ∈ (p.advance i o).tasks) :
    u = o.task ∨ u ∈ p.tasks ∨ u ∈ o.spawned := by
  rcases List.mem_append.mp h with h | h
  · rcases List.mem_or_eq_of_mem_set h with h | h
    · exact .inr (.inl h)
    · exact .inl h
  · exact .inr (.inr h)

theorem task_mem_advance {p : Pool S T O} {i : ℕ} {t : T} (o : Outcome S T O)
    (hi : p.tasks[i]? = some t) : o.task ∈ (p.advance i o).tasks :=
  List.mem_append_left _
    (List.mem_set (List.getElem?_eq_some_iff.mp hi).1 _)

theorem spawned_mem_advance {p : Pool S T O} {i : ℕ} {u : T} {o : Outcome S T O}
    (h : u ∈ o.spawned) : u ∈ (p.advance i o).tasks :=
  List.mem_append_right _ h

/-- A task that did not move stays in the pool. -/
theorem other_mem_advance {p : Pool S T O} {i j : ℕ} {u : T} (o : Outcome S T O)
    (hj : p.tasks[j]? = some u) (hji : j ≠ i) : u ∈ (p.advance i o).tasks := by
  refine List.mem_append_left _ (List.mem_of_getElem? (i := j) ?_)
  rw [List.getElem?_set_ne (Ne.symm hji)]
  exact hj

/-! ## §3  Non-interference -/

/-- An assertion about a pool in three parts: what holds of the history and
the shared state, what holds of each task against them, and what holds
between any two tasks at different places of the pool. -/
structure Assertion (S T O : Type*) where
  glob : List O → S → Prop
  loc : List O → S → T → Prop
  pair : T → T → Prop

structure Assertion.Holds (I : Assertion S T O) (p : Pool S T O) : Prop where
  glob : I.glob p.log p.shared
  loc : ∀ {i : ℕ} {t : T}, p.tasks[i]? = some t → I.loc p.log p.shared t
  pair : ∀ {i j : ℕ} {t u : T}, i ≠ j → p.tasks[i]? = some t → p.tasks[j]? = some u →
    I.pair t u

/-- The obligations of the non-interference rule. A moving task
re-establishes the shared part and its own part (`own`), leaves the parts of
the others alone (`frame`) and stays apart from them (`apart`); the tasks it
starts are apart from each other and from it (`fork`). -/
structure Assertion.Stable (I : Assertion S T O) (M : Machine S T A E O)
    (ok : Pool S T O → Label A E → Prop) : Prop where
  symm : ∀ {t u}, I.pair t u → I.pair u t
  own : ∀ {p : Pool S T O} {i : ℕ} {a t o}, I.Holds p → ok p (.task i a) → p.tasks[i]? = some t →
    M.step p.shared t a = some o →
    I.glob (p.log ++ o.seen) o.shared ∧
      ∀ u ∈ o.task :: o.spawned, I.loc (p.log ++ o.seen) o.shared u
  frame : ∀ {p : Pool S T O} {i j : ℕ} {a t u o}, I.Holds p → ok p (.task i a) →
    p.tasks[i]? = some t → M.step p.shared t a = some o → j ≠ i →
    p.tasks[j]? = some u → I.loc (p.log ++ o.seen) o.shared u
  apart : ∀ {p : Pool S T O} {i j : ℕ} {a t u o}, I.Holds p → ok p (.task i a) →
    p.tasks[i]? = some t → M.step p.shared t a = some o → j ≠ i →
    p.tasks[j]? = some u → ∀ v ∈ o.task :: o.spawned, I.pair v u
  fork : ∀ {p : Pool S T O} {i : ℕ} {a t o}, I.Holds p → ok p (.task i a) →
    p.tasks[i]? = some t → M.step p.shared t a = some o →
    (o.task :: o.spawned).Pairwise I.pair
  env : ∀ {p e s ts}, I.Holds p → ok p (.env e) →
    M.env p.shared e = some (s, ts) →
    I.glob p.log s ∧ (∀ {i : ℕ} {u : T}, p.tasks[i]? = some u → I.loc p.log s u) ∧
      (∀ u ∈ ts, I.loc p.log s u) ∧
      (∀ {i : ℕ} {u : T}, p.tasks[i]? = some u → ∀ v ∈ ts, I.pair v u) ∧
      ts.Pairwise I.pair

namespace Assertion

variable {I : Assertion S T O} {M : Machine S T A E O}
  {ok : Pool S T O → Label A E → Prop}

/-- Pairs inside the list of a task that moved and those it started. -/
theorem pair_of_pairwise {ts : List T} (symm : ∀ {t u}, I.pair t u → I.pair u t)
    (h : ts.Pairwise I.pair) {i j : ℕ} {t u : T} (hij : i ≠ j)
    (ht : ts[i]? = some t) (hu : ts[j]? = some u) : I.pair t u := by
  obtain ⟨hi, rfl⟩ := List.getElem?_eq_some_iff.mp ht
  obtain ⟨hj, rfl⟩ := List.getElem?_eq_some_iff.mp hu
  rcases Nat.lt_or_gt_of_ne hij with hlt | hlt
  · exact List.pairwise_iff_getElem.mp h i j hi hj hlt
  · exact symm (List.pairwise_iff_getElem.mp h j i hj hi hlt)

theorem Stable.holds_advance (hI : I.Stable M ok) {p : Pool S T O} {i : ℕ}
    {a : A} {t : T} {o : Outcome S T O} (hp : I.Holds p)
    (hok : ok p (.task i a)) (ht : p.tasks[i]? = some t)
    (ho : M.step p.shared t a = some o) : I.Holds (p.advance i o) := by
  obtain ⟨hglob, hnew⟩ := hI.own hp hok ht ho
  have hfork := hI.fork hp hok ht ho
  -- a task after the step, as one of the new tasks or an old one elsewhere
  have hcase : ∀ {j : ℕ} {u : T}, (p.advance i o).tasks[j]? = some u →
      (∃ k, (o.task :: o.spawned)[k]? = some u ∧
        j = if k = 0 then i else p.tasks.length + (k - 1)) ∨
      (j ≠ i ∧ p.tasks[j]? = some u) := by
    intro j u hu
    rcases getElem?_advance ht hu with ⟨rfl, rfl⟩ | ⟨hji, hu⟩ | ⟨k, rfl, hk⟩
    · exact .inl ⟨0, rfl, rfl⟩
    · exact .inr ⟨hji, hu⟩
    · exact .inl ⟨k + 1, by simpa using hk, by simp⟩
  refine ⟨hglob, ?_, ?_⟩
  · intro j u hu
    rcases hcase hu with ⟨k, hk, -⟩ | ⟨hji, hu⟩
    · exact hnew u (List.mem_of_getElem? hk)
    · exact hI.frame hp hok ht ho hji hu
  · intro j k u v hjk hu hv
    rcases hcase hu with ⟨ku, hku, hj⟩ | ⟨hji, hu⟩ <;>
      rcases hcase hv with ⟨kv, hkv, hk⟩ | ⟨hki, hv⟩
    · refine pair_of_pairwise hI.symm hfork ?_ hku hkv
      rintro rfl
      exact hjk (hj.trans hk.symm)
    · exact hI.apart hp hok ht ho hki hv u (List.mem_of_getElem? hku)
    · exact hI.symm (hI.apart hp hok ht ho hji hu v (List.mem_of_getElem? hkv))
    · exact hp.pair hjk hu hv

theorem Stable.holds_enter (hI : I.Stable M ok) {p : Pool S T O} {e : E}
    {s : S} {ts : List T} (hp : I.Holds p) (hok : ok p (.env e))
    (he : M.env p.shared e = some (s, ts)) : I.Holds (p.enter s ts) := by
  obtain ⟨hglob, hold, hnew, hapart, hpw⟩ := hI.env hp hok he
  have hcase : ∀ {j : ℕ} {u : T}, (p.enter s ts).tasks[j]? = some u →
      p.tasks[j]? = some u ∨ (p.tasks.length ≤ j ∧ ts[j - p.tasks.length]? = some u) := by
    intro j u hu
    by_cases hj : j < p.tasks.length
    · rw [Pool.enter, List.getElem?_append_left hj] at hu
      exact .inl hu
    · rw [Pool.enter, List.getElem?_append_right (by omega)] at hu
      exact .inr ⟨by omega, hu⟩
  refine ⟨hglob, ?_, ?_⟩
  · intro j u hu
    rcases hcase hu with hu | ⟨-, hu⟩
    · exact hold hu
    · exact hnew u (List.mem_of_getElem? hu)
  · intro j k u v hjk hu hv
    rcases hcase hu with hu | ⟨hj, hu⟩ <;> rcases hcase hv with hv | ⟨hk, hv⟩
    · exact hp.pair hjk hu hv
    · exact hI.symm (hapart hu v (List.mem_of_getElem? hv))
    · exact hapart hv u (List.mem_of_getElem? hu)
    · exact pair_of_pairwise hI.symm hpw (by omega) hu hv

/-- **Non-interference rule**: a stable assertion is an invariant of the
guarded runs of the pool. -/
theorem Stable.run (hI : I.Stable M ok) {p p' : Pool S T O} (h0 : I.Holds p)
    (h : Run M.poolStep ok p p') : I.Holds p' := by
  refine h.invariant h0 ?_
  intro q l q' hq hok hst
  cases l with
  | task i a =>
      obtain ⟨t, o, ht, ho, rfl⟩ := poolStep_task.mp hst
      exact hI.holds_advance hq hok ht ho
  | env e =>
      obtain ⟨s, ts, he, rfl⟩ := poolStep_env.mp hst
      exact hI.holds_enter hq hok he

/-- A pool without tasks meets an assertion as soon as its shared part does. -/
theorem holds_nil {s : S} (h : I.glob [] s) : I.Holds ⟨s, [], []⟩ :=
  ⟨h, fun ht => by simp at ht, fun _ ht => by simp at ht⟩

end Assertion

/-- **Task-local invariants**: what every task keeps by itself, whatever the
shared state, and every new task starts with, holds of all tasks of a run. -/
theorem forall_tasks_run {M : Machine S T A E O} {ok : Pool S T O → Label A E → Prop}
    {I : T → Prop} {p p' : Pool S T O} (h0 : ∀ t ∈ p.tasks, I t)
    (own : ∀ {s t a o}, I t → M.step s t a = some o → ∀ u ∈ o.task :: o.spawned, I u)
    (env : ∀ {s e s' ts}, M.env s e = some (s', ts) → ∀ u ∈ ts, I u)
    (h : Run M.poolStep ok p p') : ∀ t ∈ p'.tasks, I t := by
  refine h.invariant (I := fun q => ∀ t ∈ q.tasks, I t) h0 ?_
  intro q l q' hq _ hst u hu
  cases l with
  | task i a =>
      obtain ⟨t, o, ht, ho, rfl⟩ := poolStep_task.mp hst
      have hown := own (hq t (List.mem_of_getElem? ht)) ho
      rcases mem_advance hu with rfl | hu | hu
      · exact hown _ List.mem_cons_self
      · exact hq u hu
      · exact hown u (List.mem_cons_of_mem _ hu)
  | env e =>
      obtain ⟨s, ts, he, rfl⟩ := poolStep_env.mp hst
      rcases List.mem_append.mp hu with hu | hu
      · exact hq u hu
      · exact env he u hu

/-! ## §4  Cover: every demand of the shared state is offered by a task -/

variable {K : Type*}

/-- Whatever the shared state demands, some task of the pool offers. -/
def Covered (demand : S → K → Prop) (offer : T → K → Prop) (p : Pool S T O) :
    Prop :=
  ∀ k, demand p.shared k → ∃ t ∈ p.tasks, offer t k

/-- The obligations of the cover rule: what is demanded after a step was
demanded before and was not for the moving task to offer, or is offered by
the moving task at its next point or by a task it started. -/
structure CoverStable (demand : S → K → Prop) (offer : T → K → Prop)
    (M : Machine S T A E O) (ok : Pool S T O → Label A E → Prop) : Prop where
  own : ∀ {p : Pool S T O} {i : ℕ} {a t o}, ok p (.task i a) → p.tasks[i]? = some t →
    M.step p.shared t a = some o → ∀ k, demand o.shared k →
      (demand p.shared k ∧ ¬ offer t k) ∨ ∃ u ∈ o.task :: o.spawned, offer u k
  env : ∀ {p e s ts}, ok p (.env e) → M.env p.shared e = some (s, ts) →
    ∀ k, demand s k → demand p.shared k

/-- **Cover rule**: along a guarded run, every demand stays offered. -/
theorem CoverStable.run {demand : S → K → Prop} {offer : T → K → Prop}
    {M : Machine S T A E O} {ok : Pool S T O → Label A E → Prop}
    (hC : CoverStable demand offer M ok) {p p' : Pool S T O}
    (h0 : Covered demand offer p) (h : Run M.poolStep ok p p') :
    Covered demand offer p' := by
  refine h.invariant h0 ?_
  intro q l q' hq hok hst k hk
  cases l with
  | task i a =>
      obtain ⟨t, o, ht, ho, rfl⟩ := poolStep_task.mp hst
      rcases hC.own hok ht ho k hk with ⟨hbefore, hnot⟩ | ⟨u, hu, hoff⟩
      · obtain ⟨u, hu, hoff⟩ := hq k hbefore
        obtain ⟨j, hj⟩ := List.mem_iff_getElem?.mp hu
        -- the offering task is not the one that moved, so it is still there
        have hji : j ≠ i := by
          rintro rfl
          obtain rfl : t = u := Option.some.inj (ht.symm.trans hj)
          exact hnot hoff
        exact ⟨u, other_mem_advance o hj hji, hoff⟩
      · rcases List.mem_cons.mp hu with rfl | hu
        · exact ⟨_, task_mem_advance o ht, hoff⟩
        · exact ⟨u, spawned_mem_advance hu, hoff⟩
  | env e =>
      obtain ⟨s, ts, he, rfl⟩ := poolStep_env.mp hst
      obtain ⟨u, hu, hoff⟩ := hq k (hC.env hok he k hk)
      exact ⟨u, List.mem_append_left _ hu, hoff⟩

/-! ## §5  Closer observers -/

section Observe

variable {O' : Type*}

/-- The machine with a second observer, who notes down what `see` makes of
each step of a task. -/
def Machine.observe (M : Machine S T A E O) (see : S → T → Outcome S T O → List O') :
    Machine S T A E (O ⊕ O') where
  step s t a := (M.step s t a).map fun o =>
    { shared := o.shared, task := o.task, spawned := o.spawned
      seen := o.seen.map .inl ++ (see s t o).map .inr }
  env := M.env

/-- The pool without the notes of the second observer. -/
def Pool.forget (p : Pool S T (O ⊕ O')) : Pool S T O where
  shared := p.shared
  tasks := p.tasks
  log := p.log.filterMap Sum.getLeft?

@[simp] theorem Pool.forget_shared (p : Pool S T (O ⊕ O')) : p.forget.shared = p.shared := rfl

@[simp] theorem Pool.forget_tasks (p : Pool S T (O ⊕ O')) : p.forget.tasks = p.tasks := rfl

theorem Pool.mem_forget_log {p : Pool S T (O ⊕ O')} {x : O} :
    x ∈ p.forget.log ↔ .inl x ∈ p.log := by
  constructor
  · intro h
    obtain ⟨y, hy, hx⟩ := List.mem_filterMap.mp h
    rwa [Sum.getLeft?_eq_some_iff.mp hx] at hy
  · intro h
    exact List.mem_filterMap.mpr ⟨_, h, rfl⟩

variable {M : Machine S T A E O} {see : S → T → Outcome S T O → List O'}

theorem observe_step {s : S} {t : T} {a : A} {o : Outcome S T (O ⊕ O')} :
    (M.observe see).step s t a = some o ↔ ∃ o₀, M.step s t a = some o₀ ∧
      o.shared = o₀.shared ∧ o.task = o₀.task ∧ o.spawned = o₀.spawned ∧
      o.seen = o₀.seen.map .inl ++ (see s t o₀).map .inr := by
  constructor
  · intro h
    obtain ⟨o₀, ho, rfl⟩ := Option.map_eq_some_iff.mp h
    exact ⟨o₀, ho, rfl, rfl, rfl, rfl⟩
  · rintro ⟨o₀, ho, h1, h2, h3, h4⟩
    refine Option.map_eq_some_iff.mpr ⟨o₀, ho, ?_⟩
    cases o
    simp_all

/-- Observing more changes nothing else. -/
theorem poolStep_forget {p p' : Pool S T (O ⊕ O')} {l : Label A E}
    (h : (M.observe see).poolStep p l = some p') :
    M.poolStep p.forget l = some p'.forget := by
  cases l with
  | task i a =>
      obtain ⟨t, o, ht, ho, rfl⟩ := poolStep_task.mp h
      obtain ⟨o₀, ho₀, hs, htask, hsp, hseen⟩ := observe_step.mp ho
      refine poolStep_task.mpr ⟨t, o₀, ht, ho₀, ?_⟩
      have hleft : o.seen.filterMap Sum.getLeft? = o₀.seen := by
        simp [hseen, List.filterMap_append, List.filterMap_map, Function.comp_def]
      simp [Pool.forget, Pool.advance, hs, htask, hsp, hleft]
  | env e =>
      obtain ⟨s, ts, he, rfl⟩ := poolStep_env.mp h
      exact poolStep_env.mpr ⟨s, ts, he, rfl⟩

theorem run_forget (ok : Pool S T O → Label A E → Prop) {p p' : Pool S T (O ⊕ O')}
    (h : Run (M.observe see).poolStep (fun q l => ok q.forget l) p p') :
    Run M.poolStep ok p.forget p'.forget := by
  induction h with
  | refl => exact .refl
  | snoc _ hok hst ih => exact ih.snoc hok (poolStep_forget hst)

end Observe

/-! ## §6  Balance: nothing gets lost between two kinds of observations -/

section Balance

variable (credit debit : O → ℕ) (held : S → ℕ) (owed : T → ℕ)

/-- Everything credited so far was debited, or is held by the shared state, or
is owed by a task. -/
def Balanced (p : Pool S T O) : Prop :=
  (p.log.map credit).sum =
    (p.log.map debit).sum + held p.shared + (p.tasks.map owed).sum

/-- The obligations of the balance rule, one for each kind of step. -/
structure BalanceStable (M : Machine S T A E O) (ok : Pool S T O → Label A E → Prop) :
    Prop where
  own : ∀ {p : Pool S T O} {i : ℕ} {a t o}, ok p (.task i a) → p.tasks[i]? = some t →
    M.step p.shared t a = some o →
    (o.seen.map credit).sum + held p.shared + owed t =
      (o.seen.map debit).sum + held o.shared + owed o.task + (o.spawned.map owed).sum
  env : ∀ {p e s ts}, ok p (.env e) → M.env p.shared e = some (s, ts) →
    held p.shared = held s + (ts.map owed).sum

variable {credit debit held owed}

theorem sum_map_set (w : T → ℕ) {ts : List T} {i : ℕ} {t : T} (u : T)
    (h : ts[i]? = some t) :
    ((ts.set i u).map w).sum + w t = (ts.map w).sum + w u := by
  induction ts generalizing i with
  | nil => simp at h
  | cons v ts ih =>
      cases i with
      | zero =>
          obtain rfl : v = t := by simpa using h
          simp only [List.set_cons_zero, List.map_cons, List.sum_cons]
          omega
      | succ i =>
          have hrest := ih (by simpa using h)
          simp only [List.set_cons_succ, List.map_cons, List.sum_cons]
          omega

/-- **Balance rule**: along a guarded run the account stays balanced. -/
theorem BalanceStable.run {M : Machine S T A E O} {ok : Pool S T O → Label A E → Prop}
    (hB : BalanceStable credit debit held owed M ok) {p p' : Pool S T O}
    (h0 : Balanced credit debit held owed p) (h : Run M.poolStep ok p p') :
    Balanced credit debit held owed p' := by
  refine h.invariant h0 ?_
  intro q l q' hq hok hst
  unfold Balanced at hq ⊢
  cases l with
  | task i a =>
      obtain ⟨t, o, ht, ho, rfl⟩ := poolStep_task.mp hst
      have hown := hB.own hok ht ho
      have hset := sum_map_set owed o.task ht
      simp only [Pool.advance, List.map_append, List.sum_append]
      omega
  | env e =>
      obtain ⟨s, ts, he, rfl⟩ := poolStep_env.mp hst
      have henv := hB.env hok he
      simp only [Pool.enter, List.map_append, List.sum_append]
      omega

end Balance

end TaskPool

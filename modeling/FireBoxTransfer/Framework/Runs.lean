import Mathlib.Algebra.GroupWithZero.Nat
import Mathlib.Logic.Basic
import Mathlib.Data.List.Basic

/-!
# Runs of a partial step function

A labelled transition system given by a partial step function
`step : St → Lab → Option St`, and its finite runs. A run carries a guard
`ok : St → Lab → Prop` that every one of its steps meets; the unguarded
runs are those of the trivial guard. The rules proved here are the ones a
safety argument needs: an invariant of the steps is an invariant of the
runs, an invariant already known of the runs may be assumed at every later
step, and the executable runner yields runs.
-/

namespace Runs

variable {St Lab : Type*}

/-- `Run step ok s t`: some sequence of steps leads from `s` to `t`, each of
them meeting the guard `ok` in the state it starts from. -/
inductive Run (step : St → Lab → Option St) (ok : St → Lab → Prop) (s : St) :
    St → Prop where
  | refl : Run step ok s s
  | snoc {m t : St} {l : Lab} :
      Run step ok s m → ok m l → step m l = some t → Run step ok s t

/-- A run without a guard. -/
abbrev Reach (step : St → Lab → Option St) : St → St → Prop :=
  Run step fun _ _ => True

variable {step : St → Lab → Option St} {ok ok' : St → Lab → Prop} {s m t : St}

/-- **Invariant rule**: what the first state satisfies and every guarded step
preserves, every state of the run satisfies. -/
theorem Run.invariant {I : St → Prop} (h : Run step ok s t) (hs : I s)
    (hstep : ∀ m l t, I m → ok m l → step m l = some t → I t) : I t := by
  induction h with
  | refl => exact hs
  | snoc _ hok hst ih => exact hstep _ _ _ ih hok hst

theorem Run.mono (h : Run step ok s t) (himp : ∀ m l, ok m l → ok' m l) :
    Run step ok' s t := by
  induction h with
  | refl => exact .refl
  | snoc _ hok hst ih => exact ih.snoc (himp _ _ hok) hst

theorem Run.reach (h : Run step ok s t) : Reach step s t :=
  h.mono fun _ _ _ => trivial

theorem Run.trans (h : Run step ok s m) (h' : Run step ok m t) :
    Run step ok s t := by
  induction h' with
  | refl => exact h
  | snoc _ hok hst ih => exact ih.snoc hok hst

theorem Run.single {l : Lab} (hok : ok s l) (hst : step s l = some t) :
    Run step ok s t :=
  .snoc .refl hok hst

/-- An invariant already proved of the runs from `s` may be added to their
guard, so that a later invariant can be proved relative to it. -/
theorem Run.strengthen {J : St → Prop} (h : Run step ok s t)
    (hJ : ∀ t, Run step ok s t → J t) :
    Run step (fun m l => ok m l ∧ J m) s t := by
  induction h with
  | refl => exact .refl
  | snoc hrun hok hst ih => exact ih.snoc ⟨hok, hJ _ hrun⟩ hst

/-- What holds of the last state and, going back along every step, of the state
before it, may be added to the guard. -/
theorem Run.strengthen_back {J : St → Prop} (h : Run step ok s t) (ht : J t)
    (hback : ∀ m l t, step m l = some t → J t → J m) :
    Run step (fun m l => ok m l ∧ J m) s t := by
  induction h with
  | refl => exact .refl
  | snoc _ hok hst ih =>
      have hm := hback _ _ _ hst ht
      exact (ih hm).snoc ⟨hok, hm⟩ hst

/-! ## Recording what is done -/

section Recorded

variable {N : Type*}

/-- The system together with the list of what `note` makes of its steps. -/
def recorded (step : St → Lab → Option St) (note : St → Lab → List N) :
    St × List N → Lab → Option (St × List N) :=
  fun q l => (step q.1 l).map fun s => (s, q.2 ++ note q.1 l)

theorem recorded_eq_some {note : St → Lab → List N} {q q' : St × List N} {l : Lab} :
    recorded step note q l = some q' ↔ step q.1 l = some q'.1 ∧ q'.2 = q.2 ++ note q.1 l := by
  unfold recorded
  rw [Option.map_eq_some_iff]
  constructor
  · rintro ⟨s, hs, rfl⟩
    exact ⟨hs, rfl⟩
  · rintro ⟨hs, hnote⟩
    exact ⟨q'.1, hs, by rw [← hnote]⟩

end Recorded

/-! ## Executing a list of labels -/

/-- Follow the labels one after the other; stops at the first disabled one. -/
def exec (step : St → Lab → Option St) : St → List Lab → Option St
  | s, [] => some s
  | s, l :: ls => (step s l).bind fun m => exec step m ls

/-- Every step along the labels meets the guard. -/
def Guarded (step : St → Lab → Option St) (ok : St → Lab → Prop) :
    St → List Lab → Prop
  | _, [] => True
  | s, l :: ls => ok s l ∧ ∀ m ∈ step s l, Guarded step ok m ls

instance Guarded.decidable [∀ s l, Decidable (ok s l)] :
    ∀ (s : St) (ls : List Lab), Decidable (Guarded step ok s ls)
  | _, [] => .isTrue trivial
  | s, l :: ls =>
      haveI : Decidable (∀ m ∈ step s l, Guarded step ok m ls) :=
        match h : step s l with
        | none => .isTrue fun _ hm => nomatch hm
        | some m =>
            haveI := Guarded.decidable m ls
            decidable_of_iff (Guarded step ok m ls) (by simp)
      inferInstanceAs (Decidable (_ ∧ _))

theorem run_of_exec {ls : List Lab} (h : exec step s ls = some t)
    (hg : Guarded step ok s ls) : Run step ok s t := by
  induction ls generalizing s with
  | nil =>
      obtain rfl : s = t := by simpa [exec] using h
      exact .refl
  | cons l ls ih =>
      obtain ⟨m, hm, ht⟩ := Option.bind_eq_some_iff.mp h
      exact (Run.single hg.1 hm).trans (ih ht (hg.2 m hm))

/-- A guard that only some labels have to meet holds along the others. -/
theorem guarded_of_forall {P : Lab → Prop} (hP : ∀ s l, P l → ok s l) {ls : List Lab}
    (h : ∀ l ∈ ls, P l) (s : St) : Guarded step ok s ls := by
  induction ls generalizing s with
  | nil => exact trivial
  | cons l ls ih =>
      obtain ⟨hl, hls⟩ := List.forall_mem_cons.mp h
      exact ⟨hP s l hl, fun m _ => ih hls m⟩

theorem guarded_trivial (s : St) (ls : List Lab) :
    Guarded step (fun _ _ => True) s ls :=
  guarded_of_forall (P := fun _ => True) (fun _ _ _ => trivial) (fun _ _ => trivial) s

theorem reach_of_exec {ls : List Lab} (h : exec step s ls = some t) :
    Reach step s t :=
  run_of_exec h (guarded_trivial s ls)

/-- A concrete run can be tested: its last state exists and passes a check. -/
theorem exists_of_exec_any (step : St → Lab → Option St) (s : St) (ls : List Lab)
    (P : St → Bool) (h : (exec step s ls).any P = true) :
    ∃ t, exec step s ls = some t ∧ P t = true := by
  cases ht : exec step s ls with
  | none => rw [ht] at h; cases h
  | some t => exact ⟨t, rfl, by rwa [ht] at h⟩

end Runs

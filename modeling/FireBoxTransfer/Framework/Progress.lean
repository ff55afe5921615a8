import Mathlib.Data.List.Basic
import FireBoxTransfer.Framework.Runs

/-!
# Progress by a measure

Steps of one kind take something from a measure and the other steps add nothing to it:
then a run has only so many steps of that kind.
-/

namespace Runs

variable {St Lab : Type*} {step : St → Lab → Option St}

/-- The labels of the kind `P` decrease the measure, under an invariant. -/
structure Decreases (step : St → Lab → Option St) (I : St → Prop) (P : Lab → Bool)
    (measure : St → ℕ) : Prop where
  keeps : ∀ s l t, I s → step s l = some t → I t
  own : ∀ s l t, I s → P l = true → step s l = some t → measure t < measure s
  other : ∀ s l t, I s → step s l = some t → measure t ≤ measure s

theorem Decreases.length_le {I : St → Prop} {P : Lab → Bool} {measure : St → ℕ}
    (h : Decreases step I P measure) {s t : St} {ls : List Lab} (hs : I s)
    (hexec : exec step s ls = some t) : (ls.filter P).length ≤ measure s := by
  induction ls generalizing s with
  | nil => exact Nat.zero_le _
  | cons l ls ih =>
      obtain ⟨m, hm, ht⟩ := Option.bind_eq_some_iff.mp hexec
      have hrest := ih (h.keeps s l m hs hm) ht
      by_cases hl : P l = true
      · rw [List.filter_cons_of_pos hl, List.length_cons]
        exact Nat.lt_of_le_of_lt hrest (h.own s l m hs hl hm)
      · rw [List.filter_cons_of_neg hl]
        exact Nat.le_trans hrest (h.other s l m hs hm)

/-- A measure that is summed over a list loses the part of what is taken out. -/
theorem sum_map_eraseIdx {α : Type*} (w : α → ℕ) {xs : List α} {k : ℕ} {x : α}
    (h : xs[k]? = some x) : ((xs.eraseIdx k).map w).sum + w x = (xs.map w).sum := by
  induction xs generalizing k with
  | nil => cases h
  | cons y xs ih =>
      cases k with
      | zero =>
          obtain rfl := Option.some.inj h
          rw [List.eraseIdx_cons_zero, List.map_cons, List.sum_cons]
          omega
      | succ k =>
          have hrest := ih h
          rw [List.eraseIdx_cons_succ, List.map_cons, List.map_cons, List.sum_cons, List.sum_cons]
          omega

section Terminating

variable {I : St → Prop} {P : Lab → Bool} {measure : St → ℕ} {s : St}
  (keeps : ∀ s l t, I s → step s l = some t → I t)
  (own : ∀ s l t, I s → P l = true → step s l = some t → measure t < measure s)
include keeps own

/-- Steps of the kind that decreases the measure, one after the other. -/
theorem length_le_of_own {t : St} {ls : List Lab} (hs : I s) (hls : ∀ l ∈ ls, P l = true)
    (hexec : exec step s ls = some t) : ls.length ≤ measure s := by
  induction ls generalizing s with
  | nil => exact Nat.zero_le _
  | cons l ls ih =>
      obtain ⟨m, hm, ht⟩ := Option.bind_eq_some_iff.mp hexec
      obtain ⟨hl, hls⟩ := List.forall_mem_cons.mp hls
      have hlt := own s l m hs hl hm
      have hle := ih (keeps s l m hs hm) hls ht
      rw [List.length_cons]
      omega

/-- They lead to a state in which there is none of them. -/
theorem exists_exec_stuck (hs : I s) : ∃ ls t, (∀ l ∈ ls, P l = true) ∧
    exec step s ls = some t ∧ ∀ l, P l = true → step t l = none := by
  induction hn : measure s using Nat.strongRecOn generalizing s with
  | _ n ih =>
      by_cases hstuck : ∀ l, P l = true → step s l = none
      · exact ⟨[], s, fun l hl => absurd hl List.not_mem_nil, rfl, hstuck⟩
      · push Not at hstuck
        obtain ⟨l, hl, hsome⟩ := hstuck
        obtain ⟨m, hm⟩ := Option.ne_none_iff_exists'.mp hsome
        obtain ⟨ls, t, hls, ht, hend⟩ :=
          ih (measure m) (hn ▸ own s l m hs hl hm) (keeps s l m hs hm) rfl
        refine ⟨l :: ls, t, List.forall_mem_cons.mpr ⟨hl, hls⟩, ?_, hend⟩
        rw [exec, hm]
        exact ht

end Terminating

end Runs

import Mathlib.Algebra.GroupWithZero.Nat
import Mathlib.Data.List.Basic
import Mathlib.Data.List.Nodup

/-!
# Counting the holders of slots

The members of a list that hold a slot are counted. A list of different positions at which
there is a holder is no longer than that.
-/

namespace Slots

variable {α : Type*}

/-- The positions behind the first one, counted from there. -/
theorem nodup_pred {rs : List ℕ} (h : rs.Nodup) :
    ((rs.filter fun r => r != 0).map fun r => r - 1).Nodup := by
  refine (h.filter _).map_on ?_
  intro i hi j hj hij
  have hi0 := bne_iff_ne.mp (List.mem_filter.mp hi).2
  have hj0 := bne_iff_ne.mp (List.mem_filter.mp hj).2
  omega

theorem length_filter {rs : List ℕ} (h : rs.Nodup) :
    (rs.filter fun r => r != 0).length + (if 0 ∈ rs then 1 else 0) = rs.length := by
  rw [← h.erase_eq_filter 0]
  split
  · rename_i hzero
    rw [List.length_erase_of_mem hzero]
    have hpos := List.length_pos_of_mem hzero
    omega
  · rename_i hzero
    rw [List.erase_of_not_mem hzero, Nat.add_zero]

variable {P : α → Bool} {xs : List α}

/-- Different holders hold a slot each. -/
theorem length_le_countP {rs : List ℕ} (hnodup : rs.Nodup)
    (hrs : ∀ r ∈ rs, ∃ x, xs[r]? = some x ∧ P x = true) : rs.length ≤ xs.countP P := by
  induction xs generalizing rs with
  | nil =>
      cases rs with
      | nil => exact Nat.zero_le _
      | cons r rs =>
          obtain ⟨x, hx, -⟩ := hrs r List.mem_cons_self
          cases hx
  | cons y xs ih =>
      have hrest := ih (nodup_pred hnodup) (by
        intro r hr
        obtain ⟨r', hr', rfl⟩ := List.mem_map.mp hr
        obtain ⟨hmem, hne⟩ := List.mem_filter.mp hr'
        obtain ⟨x, hx, hholds⟩ := hrs r' hmem
        refine ⟨x, ?_, hholds⟩
        cases r' with
        | zero => cases hne
        | succ r' => exact hx)
      rw [List.length_map] at hrest
      have hlength := length_filter hnodup
      rw [List.countP_cons]
      by_cases hzero : 0 ∈ rs
      · obtain ⟨x, hx, hholds⟩ := hrs 0 hzero
        obtain rfl := Option.some.inj hx
        rw [if_pos hzero] at hlength
        rw [if_pos hholds]
        omega
      · rw [if_neg hzero] at hlength
        omega

/-- One member takes or gives back a slot. -/
theorem countP_set_add {k : ℕ} {x y : α} (h : xs[k]? = some x) :
    (xs.set k y).countP P + (if P x = true then 1 else 0) =
      xs.countP P + (if P y = true then 1 else 0) := by
  induction xs generalizing k with
  | nil => cases h
  | cons z xs ih =>
      cases k with
      | zero =>
          obtain rfl := Option.some.inj h
          rw [List.set_cons_zero, List.countP_cons, List.countP_cons]
          omega
      | succ k =>
          have hrest := ih h
          rw [List.set_cons_succ, List.countP_cons, List.countP_cons]
          omega

end Slots

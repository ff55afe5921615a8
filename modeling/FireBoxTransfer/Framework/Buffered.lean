import Mathlib.Algebra.GroupWithZero.Nat
import Mathlib.Data.List.Basic
import Mathlib.Data.List.Perm.Basic

/-!
# Unordered buffering

The items of a source are taken in their order, as long as fewer than a bound of them are under
way, and end in any order. At every point the source is what is done, what is under way and
what was not taken yet.
-/

variable {α β : Type*}

/-! ## §1  The buffer -/

/-- `done` is in the order in which the items ended. -/
structure Buffered (α β : Type*) where
  queue : List α
  active : List α
  done : List (α × β)
deriving DecidableEq

namespace Buffered

def ofList (source : List α) : Buffered α β := ⟨source, [], []⟩

/-- The next item is taken. -/
def pull (limit : ℕ) (b : Buffered α β) : Option (Buffered α β) :=
  match b.queue with
  | [] => none
  | x :: queue =>
      if b.active.length < limit then some { b with queue, active := b.active ++ [x] } else none

/-- The item at a position ends. -/
def finish (i : ℕ) (result : β) (b : Buffered α β) : Option (Buffered α β) :=
  b.active[i]?.map fun x =>
    { b with active := b.active.eraseIdx i, done := b.done ++ [(x, result)] }

def isDone (b : Buffered α β) : Bool := b.queue.isEmpty && b.active.isEmpty

/-! ## §2  What it takes -/

/-- The buffer of a source, with a bound on what is under way. -/
structure Takes (limit : ℕ) (source : List α) (b : Buffered α β) : Prop where
  perm : source.Perm (b.done.map Prod.fst ++ (b.active ++ b.queue))
  bound : b.active.length ≤ limit

variable {limit : ℕ} {source : List α} {b b' : Buffered α β}

theorem takes_ofList (limit : ℕ) (source : List α) :
    (ofList source : Buffered α β).Takes limit source :=
  ⟨.refl _, Nat.zero_le _⟩

theorem Takes.pull (h : b.Takes limit source) (hpull : b.pull limit = some b') :
    b'.Takes limit source := by
  unfold Buffered.pull at hpull
  split at hpull
  · cases hpull
  · rename_i x queue hqueue
    split at hpull
    · rename_i hroom
      obtain rfl := Option.some.inj hpull
      refine ⟨?_, ?_⟩
      · rw [List.append_assoc, List.singleton_append, ← hqueue]
        exact h.perm
      · rw [List.length_append, List.length_singleton]
        exact hroom
    · cases hpull

theorem Takes.finish {i : ℕ} {result : β} (h : b.Takes limit source)
    (hfinish : b.finish i result = some b') : b'.Takes limit source := by
  obtain ⟨x, hx, rfl⟩ := Option.map_eq_some_iff.mp hfinish
  obtain ⟨hi, rfl⟩ := List.getElem?_eq_some_iff.mp hx
  refine ⟨?_, Nat.le_trans (List.length_eraseIdx_le _ i) h.bound⟩
  have hactive : b.active.Perm (b.active[i] :: b.active.eraseIdx i) :=
    (List.getElem_cons_eraseIdx_perm hi).symm
  refine h.perm.trans ?_
  rw [List.map_append, List.append_assoc]
  exact (hactive.append_right b.queue).append_left _

/-- Every item of the source ended, once. -/
theorem Takes.perm_done (h : b.Takes limit source) (hdone : b.isDone = true) :
    source.Perm (b.done.map Prod.fst) := by
  obtain ⟨hqueue, hactive⟩ := Bool.and_eq_true_iff.mp hdone
  have hperm := h.perm
  rwa [List.isEmpty_iff.mp hqueue, List.isEmpty_iff.mp hactive, List.append_nil,
    List.append_nil] at hperm

theorem done_of_pull (hpull : b.pull limit = some b') : b'.done = b.done := by
  unfold Buffered.pull at hpull
  split at hpull
  · cases hpull
  · split at hpull
    · obtain rfl := Option.some.inj hpull
      rfl
    · cases hpull

/-! ## §3  The steps that are left -/

def work (b : Buffered α β) : ℕ := 2 * b.queue.length + b.active.length

theorem work_pull (hpull : b.pull limit = some b') : b'.work < b.work := by
  unfold Buffered.pull at hpull
  split at hpull
  · cases hpull
  · rename_i x queue hqueue
    split at hpull
    · obtain rfl := Option.some.inj hpull
      unfold work
      dsimp only
      rw [hqueue, List.length_append, List.length_singleton, List.length_cons]
      omega
    · cases hpull

theorem work_finish {i : ℕ} {result : β} (hfinish : b.finish i result = some b') :
    b'.work < b.work := by
  obtain ⟨x, hx, rfl⟩ := Option.map_eq_some_iff.mp hfinish
  have hi := (List.getElem?_eq_some_iff.mp hx).1
  unfold work
  dsimp only
  rw [List.length_eraseIdx_of_lt hi]
  omega

/-- A buffer that can go on neither way is done. -/
theorem isDone_of_stuck (hlimit : 0 < limit) (hpull : b.pull limit = none)
    (hactive : b.active[0]? = none) : b.isDone = true := by
  have hnone : b.active = [] := by
    cases hlist : b.active with
    | nil => rfl
    | cons x active =>
        rw [hlist] at hactive
        cases hactive
  unfold Buffered.pull at hpull
  split at hpull
  · rename_i hqueue
    unfold isDone
    rw [hqueue, hnone]
    rfl
  · rw [hnone, List.length_nil, if_pos hlimit] at hpull
    cases hpull

end Buffered

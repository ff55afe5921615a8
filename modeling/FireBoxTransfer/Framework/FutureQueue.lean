import Mathlib.Algebra.GroupWithZero.Nat
import Mathlib.Logic.Function.Basic
import Mathlib.Data.List.Basic

/-!
# Queues of asynchronous actions

A queue starts its actions one after another, each when the one before it has finished.
Actions are numbered in the order in which they were added. What the numbers say about the
progress of an action is a function of its own, and the queue is serial with respect to it:
an action has started only if every action before it is over.
-/

/-! ## §1  The queue -/

/-- The actions that have not started, and the one that is awaited. -/
structure FutureQueue (α : Type*) where
  queue : List α
  running : Option α
deriving DecidableEq

namespace FutureQueue

variable {α : Type*}

def empty : FutureQueue α := ⟨[], none⟩

/-- The loop over the queue, up to its next await. -/
def drain (q : FutureQueue α) : FutureQueue α :=
  match q.queue with
  | [] => ⟨[], none⟩
  | a :: rest => ⟨rest, some a⟩

/-- The loop is entered if it is not under way. -/
def add (q : FutureQueue α) (a : α) : FutureQueue α :=
  match q.running with
  | some _ => { q with queue := q.queue ++ [a] }
  | none => drain { q with queue := q.queue ++ [a] }

/-! ## §2  Serial queues -/

inductive Stage where
  | waiting | running | finished
deriving DecidableEq

/-- The queue has the actions that `f` has a stage for, in the order of their numbers. -/
structure Serial (q : FutureQueue ℕ) (f : ℕ → Option Stage) : Prop where
  waiting : ∀ k, k ∈ q.queue ↔ f k = some .waiting
  sorted : q.queue.Pairwise (· < ·)
  running : ∀ k, q.running = some k ↔ f k = some .running
  finished : ∀ i j, f i = some .finished → f j = some .waiting ∨ f j = some .running → i < j
  next : ∀ i j, f i = some .running → f j = some .waiting → i < j
  idle : q.running = none → q.queue = []

variable {q : FutureQueue ℕ} {f : ℕ → Option Stage} {i j k : ℕ}

/-- **One at a time, in order**: what comes before an action that has started is over. -/
theorem Serial.over_of_lt (h : q.Serial f) (hij : i < j) {a b : Stage} (hi : f i = some a)
    (hj : f j = some b) (hb : b ≠ .waiting) : a = .finished := by
  cases a with
  | finished => rfl
  | waiting =>
      have hji : j < i := by
        cases b with
        | waiting => exact absurd rfl hb
        | running => exact h.next j i hj hi
        | finished => exact h.finished j i hj (.inl hi)
      omega
  | running =>
      cases b with
      | waiting => exact absurd rfl hb
      | running =>
          have hsame : some i = some j := ((h.running i).mpr hi).symm.trans ((h.running j).mpr hj)
          have heq := Option.some.inj hsame
          omega
      | finished =>
          have hji := h.finished j i hj (.inr hi)
          omega

theorem serial_empty (h : ∀ k, f k = none) : (empty : FutureQueue ℕ).Serial f where
  waiting k := by simp [empty, h]
  sorted := .nil
  running k := by simp [empty, h]
  finished i j hi := by simp [h] at hi
  next i j hi := by simp [h] at hi
  idle _ := rfl

/-- While actions wait one is running. -/
theorem Serial.exists_running (h : q.Serial f) (hk : f k = some .waiting) :
    ∃ r, f r = some .running := by
  cases hr : q.running with
  | none =>
      have hmem := (h.waiting k).mpr hk
      rw [h.idle hr] at hmem
      cases hmem
  | some r => exact ⟨r, (h.running r).mp hr⟩

/-! ## §3  What the operations keep -/

/-- A new action starts if nothing is running, and waits otherwise. -/
theorem Serial.add (h : q.Serial f) (hnew : ∀ j a, f j = some a → j < k) :
    (q.add k).Serial
      (Function.update f k (some (if q.running = none then .running else .waiting))) := by
  have hnone : f k = none := by
    cases hk : f k with
    | none => rfl
    | some a => exact absurd (hnew k a hk) (Nat.lt_irrefl k)
  have hlt : ∀ j a, f j = some a → j ≠ k := fun j a hj => Nat.ne_of_lt (hnew j a hj)
  cases hr : q.running with
  | none =>
      -- the queue is empty, and the new action is its next
      have hqueue := h.idle hr
      have hadd : q.add k = ⟨[], some k⟩ := by
        unfold FutureQueue.add
        rw [hr, hqueue]
        rfl
      have hwait : ∀ j, f j ≠ some .waiting := by
        intro j hj
        have hmem := (h.waiting j).mpr hj
        rw [hqueue] at hmem
        cases hmem
      have hrun : ∀ j, f j ≠ some .running := by
        intro j hj
        have hsome := (h.running j).mpr hj
        rw [hr] at hsome
        cases hsome
      rw [hadd, if_pos rfl]
      constructor
      case waiting => intro j; simp only [Function.update_apply]; grind
      case sorted => exact .nil
      case running => intro j; simp only [Function.update_apply]; grind
      case finished => intro i j; simp only [Function.update_apply]; grind
      case next => intro i j; simp only [Function.update_apply]; grind
      case idle => intro hidle; cases hidle
  | some r =>
      have hadd : q.add k = ⟨q.queue ++ [k], some r⟩ := by
        unfold FutureQueue.add
        rw [hr]
      rw [hadd, if_neg (Option.some_ne_none r)]
      constructor
      case waiting =>
        intro j
        have hj := h.waiting j
        simp only [Function.update_apply, List.mem_append, List.mem_singleton]
        grind
      case sorted =>
        refine List.pairwise_append.mpr ⟨h.sorted, List.pairwise_singleton .., ?_⟩
        intro j hj k' hk'
        obtain rfl := List.mem_singleton.mp hk'
        exact hnew j _ ((h.waiting j).mp hj)
      case running =>
        intro j
        have hj := h.running j
        rw [hr] at hj
        simp only [Function.update_apply]
        grind
      case finished =>
        intro i j
        have hover := h.finished i j
        simp only [Function.update_apply]
        grind
      case next =>
        intro i j
        have hnext := h.next i j
        simp only [Function.update_apply]
        grind
      case idle => intro hidle; cases hidle

/-- The running action is over, and the queue goes on with the next one. -/
theorem Serial.drain (h : q.Serial f) (hk : f k = some .running) :
    q.drain.Serial (match q.queue with
      | [] => Function.update f k (some .finished)
      | j :: _ => Function.update (Function.update f k (some .finished)) j (some .running)) := by
  have honly : ∀ j, f j = some .running → j = k := by
    intro j hj
    exact Option.some.inj (((h.running j).mpr hj).symm.trans ((h.running k).mpr hk))
  cases hqueue : q.queue with
  | nil =>
      have hdrain : q.drain = ⟨[], none⟩ := by
        unfold FutureQueue.drain
        rw [hqueue]
      have hwait : ∀ j, f j ≠ some .waiting := by
        intro j hj
        have hmem := (h.waiting j).mpr hj
        rw [hqueue] at hmem
        cases hmem
      rw [hdrain]
      constructor
      case waiting => intro j; simp only [Function.update_apply]; grind
      case sorted => exact .nil
      case running => intro j; simp only [Function.update_apply]; grind
      case finished => intro i j; simp only [Function.update_apply]; grind
      case next => intro i j; simp only [Function.update_apply]; grind
      case idle => exact fun _ => rfl
  | cons n rest =>
      have hdrain : q.drain = ⟨rest, some n⟩ := by
        unfold FutureQueue.drain
        rw [hqueue]
      have hn : f n = some .waiting := by
        rw [← h.waiting n, hqueue]
        exact List.mem_cons_self
      have hsorted := h.sorted
      rw [hqueue] at hsorted
      obtain ⟨hfirst, hrest⟩ := List.pairwise_cons.mp hsorted
      have hmem : ∀ j, f j = some .waiting ↔ j = n ∨ j ∈ rest := by
        intro j
        rw [← h.waiting j, hqueue, List.mem_cons]
      have hnot : n ∉ rest := fun hn => Nat.lt_irrefl n (hfirst n hn)
      have hkn : k < n := h.next k n hk hn
      rw [hdrain]
      dsimp only
      constructor
      case waiting =>
        intro j
        have hj := hmem j
        simp only [Function.update_apply]
        grind
      case sorted => exact hrest
      case running => intro j; simp only [Function.update_apply]; grind
      case finished =>
        intro i j
        have hover := h.finished i j
        have hnext := h.next i j
        simp only [Function.update_apply]
        grind
      case next =>
        intro i j
        have hj := hmem j
        have hlt := hfirst j
        simp only [Function.update_apply]
        grind
      case idle => intro hidle; cases hidle

end FutureQueue

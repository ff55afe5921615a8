import FireBoxTransfer.Framework.Runs

/-!
# Two processes and two queues

Two sequential processes that put messages into each other's queue and wait for what
is in their own. What one of them does next is never disabled nor changed by a step of
the other one, so one schedule that comes to rest tells what every schedule comes to.
-/

namespace Runs

variable {St Lab : Type*} {step : St → Lab → Option St} {s m t t' : St}

/-! ## §1  Steps that do not disturb each other -/

def AtRest (step : St → Lab → Option St) (s : St) : Prop := ∀ l, step s l = none

/-- Two different labels can be taken in either order, with one result. -/
def Independent (step : St → Lab → Option St) : Prop :=
  ∀ s a b sa sb, a ≠ b → step s a = some sa → step s b = some sb →
    ∃ t, step sa b = some t ∧ step sb a = some t

theorem exec_append {ls ls' : List Lab} (h : exec step s ls = some m) :
    exec step s (ls ++ ls') = exec step m ls' := by
  induction ls generalizing s with
  | nil =>
      obtain rfl : s = m := by simpa [exec] using h
      rfl
  | cons l ls ih =>
      obtain ⟨u, hu, hm⟩ := Option.bind_eq_some_iff.mp h
      rw [List.cons_append, exec, hu, Option.bind_some, ih hm]

theorem exists_exec (h : Reach step s t) : ∃ ls, exec step s ls = some t := by
  induction h with
  | refl => exact ⟨[], rfl⟩
  | @snoc m t l _ _ hstep ih =>
      obtain ⟨ls, hls⟩ := ih
      refine ⟨ls ++ [l], ?_⟩
      rw [exec_append hls, exec, hstep]
      rfl

/-- A first step may be brought forward in a run that comes to rest. -/
theorem exec_after_step (hindep : Independent step) {ls : List Lab}
    (h : exec step s ls = some t) (hrest : AtRest step t) {a : Lab} (ha : step s a = some m) :
    ∃ ls', exec step m ls' = some t ∧ ls'.length + 1 = ls.length := by
  induction ls generalizing s m with
  | nil =>
      obtain rfl : s = t := by simpa [exec] using h
      rw [hrest a] at ha
      cases ha
  | cons l ls ih =>
      obtain ⟨u, hu, ht⟩ := Option.bind_eq_some_iff.mp h
      by_cases hal : a = l
      · subst hal
        rw [ha, Option.some.injEq] at hu
        exact ⟨ls, hu ▸ ht, rfl⟩
      · obtain ⟨v, hml, hua⟩ := hindep s a l m u hal ha hu
        obtain ⟨ls', hls', hlen⟩ := ih ht hua
        refine ⟨l :: ls', ?_, by rw [List.length_cons, List.length_cons, hlen]⟩
        rw [exec, hml, Option.bind_some, hls']

theorem exec_after (hindep : Independent step) {ls₁ ls : List Lab}
    (h : exec step s ls = some t) (hrest : AtRest step t) (hm : exec step s ls₁ = some m) :
    ∃ ls₂, exec step m ls₂ = some t ∧ ls₁.length + ls₂.length = ls.length := by
  induction ls₁ generalizing s ls with
  | nil =>
      obtain rfl : s = m := by simpa [exec] using hm
      exact ⟨ls, h, by simp⟩
  | cons a ls₁ ih =>
      obtain ⟨u, hu, hm⟩ := Option.bind_eq_some_iff.mp hm
      obtain ⟨ls', hls', hlen⟩ := exec_after_step hindep h hrest hu
      obtain ⟨ls₂, hls₂, hlen₂⟩ := ih hls' hm
      exact ⟨ls₂, hls₂, by rw [← hlen, ← hlen₂, List.length_cons, Nat.add_right_comm]⟩

/-- Every run from `s` is of bounded length and can only go on to `t`, where nothing
can move. -/
structure Settles (step : St → Lab → Option St) (s t : St) : Prop where
  rest : AtRest step t
  every : ∃ n, ∀ ls m, exec step s ls = some m → ls.length ≤ n ∧ Reach step m t

/-- **One schedule decides.** -/
theorem Independent.settles (hindep : Independent step) (h : Reach step s t)
    (hrest : AtRest step t) : Settles step s t := by
  obtain ⟨ls, hls⟩ := exists_exec h
  refine ⟨hrest, ls.length, fun ls₁ m hm => ?_⟩
  obtain ⟨ls₂, hls₂, hlen⟩ := exec_after hindep hls hrest hm
  exact ⟨Nat.le.intro hlen, reach_of_exec hls₂⟩

theorem eq_of_rest (hrest : AtRest step s) (h : Reach step s t) : t = s := by
  induction h with
  | refl => rfl
  | @snoc m t l _ _ hstep ih =>
      rw [ih, hrest l] at hstep
      cases hstep

theorem Settles.unique (h : Settles step s t) (h' : Settles step s t') : t = t' := by
  obtain ⟨n, hn⟩ := h.every
  obtain ⟨n', hn'⟩ := h'.every
  have ht : Reach step s t := (hn [] s rfl).2
  obtain ⟨ls, hls⟩ := exists_exec ht
  exact (eq_of_rest h.rest (hn' ls t hls).2).symm

end Runs

namespace Duplex

open Runs

variable {S T M N : Type*}

/-! ## §2  The system -/

/-- What a process does next: it sends an `M`, or waits for an `N`. -/
inductive Action (S M N : Type*) where
  | send (message : M) (next : S)
  | receive (next : N → S)
  | silent (next : S)
  | ended

structure System (S T M N : Type*) where
  left : S
  right : T
  toLeft : List N
  toRight : List M

inductive Side where
  | left
  | right
deriving DecidableEq

def step (left : S → Action S M N) (right : T → Action T N M) (s : System S T M N) :
    Side → Option (System S T M N)
  | .left =>
      match left s.left with
      | .send m next => some { s with left := next, toRight := s.toRight ++ [m] }
      | .receive next =>
          match s.toLeft with
          | n :: rest => some { s with left := next n, toLeft := rest }
          | [] => none
      | .silent next => some { s with left := next }
      | .ended => none
  | .right =>
      match right s.right with
      | .send n next => some { s with right := next, toLeft := s.toLeft ++ [n] }
      | .receive next =>
          match s.toRight with
          | m :: rest => some { s with right := next m, toRight := rest }
          | [] => none
      | .silent next => some { s with right := next }
      | .ended => none

/-! ## §3  One outcome -/

variable {left : S → Action S M N} {right : T → Action T N M} {s : System S T M N}

theorem left_right {sl sr : System S T M N} (hl : step left right s .left = some sl)
    (hr : step left right s .right = some sr) :
    ∃ t, step left right sl .right = some t ∧ step left right sr .left = some t := by
  obtain ⟨l, r, toLeft, toRight⟩ := s
  -- what a process takes is at the head of its queue, what the other one adds at the end
  cases hactl : left l <;> simp only [step, hactl] at hl <;>
    cases hactr : right r <;> simp only [step, hactr] at hr
  all_goals
    cases toLeft <;> cases toRight <;> simp_all <;> subst_vars <;> simp [step, hactl, hactr]

theorem independent (left : S → Action S M N) (right : T → Action T N M) :
    Independent (step left right) := by
  intro s a b sa sb hab ha hb
  cases a <;> cases b
  case left.left => exact absurd rfl hab
  case right.right => exact absurd rfl hab
  case left.right => exact left_right ha hb
  case right.left =>
    obtain ⟨t, htl, htr⟩ := left_right hb ha
    exact ⟨t, htr, htl⟩

end Duplex

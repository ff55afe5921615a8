import Mathlib.Algebra.GroupWithZero.Nat
import Mathlib.Data.List.Basic

/-!
# Interactive programs

A program looks at a shared value without waiting (`read`), calls operations
and waits for their answers (`call`), returns or throws. The meaning of the
operations is left to a specification over worlds `W`: when a program may look
or call, and what it may then see. Weakest preconditions follow the structure
of the program, so every combinator has one rule.
-/

theorem Except.bind_eq_ok {ε α β : Type} {x : Except ε α} {f : α → Except ε β} {b : β} :
    (x >>= f) = .ok b ↔ ∃ a, x = .ok a ∧ f a = .ok b := by
  cases x with
  | ok a => exact ⟨fun h => ⟨a, rfl, h⟩, fun ⟨_, ha, h⟩ => Except.ok.inj ha ▸ h⟩
  | error e => exact iff_of_false (fun h => by cases h) fun ⟨_, ha, _⟩ => by cases ha

theorem Except.bind_ok {ε α β : Type} {x : Except ε α} {f : α → Except ε β} {a : α}
    (h : x = .ok a) : (x >>= f) = f a := by
  rw [h]
  rfl

/-- Programs over a shared value of type `ρ`, with exceptions of type `ε` and
operations `Op`, each with its type of answers. -/
inductive Program (ρ ε Op : Type) (Ans : Op → Type) (α : Type) where
  | pure (a : α)
  | throw (e : ε)
  | read (k : ρ → Program ρ ε Op Ans α)
  | call (op : Op) (k : Except ε (Ans op) → Program ρ ε Op Ans α)

namespace Program

variable {ρ ε Op α β σ : Type} {Ans : Op → Type}

/-! ## §1  Programs -/

def bind : Program ρ ε Op Ans α → (α → Program ρ ε Op Ans β) → Program ρ ε Op Ans β
  | .pure a, f => f a
  | .throw e, _ => .throw e
  | .read k, f => .read fun r => (k r).bind f
  | .call op k, f => .call op fun a => (k a).bind f

/-- Run `h` on the exception that `p` throws, if it throws one. -/
def catching : Program ρ ε Op Ans α → (ε → Program ρ ε Op Ans α) → Program ρ ε Op Ans α
  | .pure a, _ => .pure a
  | .throw e, h => h e
  | .read k, h => .read fun r => (k r).catching h
  | .call op k, h => .call op fun a => (k a).catching h

instance : Monad (Program ρ ε Op Ans) where
  pure := .pure
  bind := .bind

/-- The shared value. -/
def get : Program ρ ε Op Ans ρ := .read .pure

/-- Call an operation; its exception is thrown. -/
def await (op : Op) : Program ρ ε Op Ans (Ans op) :=
  .call op fun
    | .ok a => .pure a
    | .error e => .throw e

/-- A loop over a list with an accumulator. -/
def foldl (f : σ → β → Program ρ ε Op Ans σ) : σ → List β → Program ρ ε Op Ans σ
  | s, [] => .pure s
  | s, b :: bs => (f s b).bind fun s' => foldl f s' bs

/-! ## §2  Specifications and weakest preconditions -/

/-- What a program may do in a world, and what it may see there: `reads w r w'`
says that looking at the shared value in `w` may give `r` and lead to `w'`. -/
structure Spec (ρ ε Op : Type) (Ans : Op → Type) (W : Type*) where
  mayRead : W → Prop
  reads : W → ρ → W → Prop
  mayCall : Op → W → Prop
  answers : (op : Op) → W → Except ε (Ans op) → W → Prop

variable {W : Type*} {S : Spec ρ ε Op Ans W}

/-- Whatever it sees, the program only does what it may, and if it ends it
ends in `Q`, or in `E` when it throws. -/
def wp (S : Spec ρ ε Op Ans W) :
    Program ρ ε Op Ans α → (α → W → Prop) → (ε → W → Prop) → W → Prop
  | .pure a, Q, _, w => Q a w
  | .throw e, _, E, w => E e w
  | .read k, Q, E, w => S.mayRead w ∧ ∀ r w', S.reads w r w' → (k r).wp S Q E w'
  | .call op k, Q, E, w => S.mayCall op w ∧ ∀ a w', S.answers op w a w' → (k a).wp S Q E w'

section Rules

variable {Q Q' : α → W → Prop} {E E' : ε → W → Prop} {w : W}

@[simp] theorem wp_pure {a : α} :
    wp S (Pure.pure a : Program ρ ε Op Ans α) Q E w ↔ Q a w := .rfl

@[simp] theorem wp_throw {e : ε} :
    wp S (.throw e : Program ρ ε Op Ans α) Q E w ↔ E e w := .rfl

theorem wp_ret {a : α} : wp S (.pure a : Program ρ ε Op Ans α) Q E w ↔ Q a w := .rfl

theorem wp_read {k : ρ → Program ρ ε Op Ans α} :
    wp S (.read k) Q E w ↔
      S.mayRead w ∧ ∀ r w', S.reads w r w' → (k r).wp S Q E w' := .rfl

theorem wp_call {op : Op} {k : Except ε (Ans op) → Program ρ ε Op Ans α} :
    wp S (.call op k) Q E w ↔
      S.mayCall op w ∧ ∀ a w', S.answers op w a w' → (k a).wp S Q E w' := .rfl

theorem wp_mono {p : Program ρ ε Op Ans α} (h : p.wp S Q E w) (hQ : ∀ a w, Q a w → Q' a w)
    (hE : ∀ e w, E e w → E' e w) : p.wp S Q' E' w := by
  induction p generalizing w with
  | pure a => exact hQ a w h
  | throw e => exact hE e w h
  | read k ih => exact ⟨h.1, fun r w' hr => ih r (h.2 r w' hr)⟩
  | call op k ih => exact ⟨h.1, fun a w' ha => ih a (h.2 a w' ha)⟩

/-- **Sequencing.** -/
@[simp] theorem wp_bind {p : Program ρ ε Op Ans β} {f : β → Program ρ ε Op Ans α} :
    wp S (p >>= f) Q E w ↔ p.wp S (fun b => (f b).wp S Q E) E w := by
  change wp S (p.bind f) Q E w ↔ _
  induction p generalizing w with
  | pure b => exact .rfl
  | throw e => exact .rfl
  | read k ih =>
      exact and_congr_right fun _ => forall₂_congr fun r w' => imp_congr_right fun _ => ih r
  | call op k ih =>
      exact and_congr_right fun _ => forall₂_congr fun a w' => imp_congr_right fun _ => ih a

/-- **Catching.** -/
@[simp] theorem wp_catching {p : Program ρ ε Op Ans α} {h : ε → Program ρ ε Op Ans α} :
    wp S (p.catching h) Q E w ↔ p.wp S Q (fun e => (h e).wp S Q E) w := by
  induction p generalizing w with
  | pure a => exact .rfl
  | throw e => exact .rfl
  | read k ih =>
      exact and_congr_right fun _ => forall₂_congr fun r w' => imp_congr_right fun _ => ih r
  | call op k ih =>
      exact and_congr_right fun _ => forall₂_congr fun a w' => imp_congr_right fun _ => ih a

theorem wp_get {Q : ρ → W → Prop} (h : S.mayRead w) (hQ : ∀ r w', S.reads w r w' → Q r w') :
    wp S get Q E w := ⟨h, hQ⟩

theorem wp_await {op : Op} {Q : Ans op → W → Prop} (h : S.mayCall op w)
    (hQ : ∀ a w', S.answers op w (.ok a) w' → Q a w')
    (hE : ∀ e w', S.answers op w (.error e) w' → E e w') : wp S (await op) Q E w := by
  refine ⟨h, fun a w' ha => ?_⟩
  cases a with
  | ok a => exact hQ a w' ha
  | error e => exact hE e w' ha

/-- **Loops**, with an assertion about what remains of the list. -/
theorem wp_foldl_rest {f : σ → β → Program ρ ε Op Ans σ} {I : List β → σ → W → Prop} {s : σ}
    {bs : List β} (h : I bs s w)
    (hf : ∀ s b bs w, I (b :: bs) s w → (f s b).wp S (fun s' => I bs s') E w) :
    wp S (foldl f s bs) (fun s' => I [] s') E w := by
  induction bs generalizing s w with
  | nil => exact h
  | cons b bs ih =>
      change wp S (f s b >>= fun s' => foldl f s' bs) (fun s' => I [] s') E w
      rw [wp_bind]
      exact wp_mono (hf s b bs w h) (fun s' w' hs' => ih hs') fun _ _ he => he

/-- **Loops**: an invariant of the body is an invariant of the loop. -/
theorem wp_foldl {f : σ → β → Program ρ ε Op Ans σ} {I : σ → W → Prop} {s : σ} {bs : List β}
    (h : I s w) (hf : ∀ s b w, b ∈ bs → I s w → (f s b).wp S I E w) :
    wp S (foldl f s bs) I E w := by
  have hrest : wp S (foldl f s bs) (fun s' w => I s' w ∧ ∀ b ∈ ([] : List β), b ∈ bs) E w := by
    refine wp_foldl_rest (I := fun rest s w => I s w ∧ ∀ b ∈ rest, b ∈ bs) ⟨h, fun _ hb => hb⟩ ?_
    rintro s b rest w ⟨hs, hmem⟩
    refine wp_mono (hf s b w (hmem b List.mem_cons_self) hs) (fun s' w' hs' => ?_) fun _ _ he => he
    exact ⟨hs', fun b' hb' => hmem b' (List.mem_cons_of_mem _ hb')⟩
  exact wp_mono hrest (fun _ _ hs => hs.1) fun _ _ he => he

end Rules

/-! ## §3  Executions -/

/-- The program may come from `p` in `w` to `q` in `w'`. -/
inductive Reaches (S : Spec ρ ε Op Ans W) (p : Program ρ ε Op Ans α) (w : W) :
    Program ρ ε Op Ans α → W → Prop where
  | refl : Reaches S p w p w
  | read {k r w₁ w₂} : Reaches S p w (.read k) w₁ → S.reads w₁ r w₂ → Reaches S p w (k r) w₂
  | call {op k a w₁ w₂} : Reaches S p w (.call op k) w₁ → S.answers op w₁ a w₂ →
      Reaches S p w (k a) w₂

theorem Reaches.trans {p q q' : Program ρ ε Op Ans α} {w w' w'' : W} (h : Reaches S p w q w')
    (h' : Reaches S q w' q' w'') : Reaches S p w q' w'' := by
  induction h' with
  | refl => exact h
  | read _ hread ih => exact ih.read hread
  | call _ hcall ih => exact ih.call hcall

/-- An execution that starts with a call. -/
theorem Reaches.head {op : Op} {k : Except ε (Ans op) → Program ρ ε Op Ans α}
    {q : Program ρ ε Op Ans α} {a : Except ε (Ans op)} {w v w' : W} (hans : S.answers op w a v)
    (h : Reaches S (k a) v q w') : Reaches S (.call op k) w q w' :=
  Reaches.trans (.call .refl hans) h

/-- One thing that a program does, and what comes next. -/
inductive Next (S : Spec ρ ε Op Ans W) :
    Program ρ ε Op Ans α × W → Program ρ ε Op Ans α × W → Prop where
  | read {k r w w'} : S.reads w r w' → Next S (.read k, w) (k r, w')
  | call {op k a w w'} : S.answers op w a w' → Next S (.call op k, w) (k a, w')

/-- The program may not go on forever. -/
def Terminates (S : Spec ρ ε Op Ans W) (p : Program ρ ε Op Ans α) (w : W) : Prop :=
  Acc (fun later now => Next S now later) (p, w)

/-- **No execution is endless**; what a program cannot do is to ask for more
fuel than it was given. -/
theorem terminates (p : Program ρ ε Op Ans α) (w : W) : Terminates S p w := by
  induction p generalizing w with
  | pure a => exact ⟨_, fun _ hnext => nomatch hnext⟩
  | throw e => exact ⟨_, fun _ hnext => nomatch hnext⟩
  | read k ih =>
      constructor
      intro later hnext
      cases hnext with
      | read _ => exact ih _ _
  | call op k ih =>
      constructor
      intro later hnext
      cases hnext with
      | call _ => exact ih _ _

/-- Only what may be seen matters to an execution. -/
theorem Reaches.mono {S' : Spec ρ ε Op Ans W} {p q : Program ρ ε Op Ans α} {w w' : W}
    (h : Reaches S p w q w') (hreads : ∀ w r w', S.reads w r w' → S'.reads w r w')
    (hans : ∀ op w a w', S.answers op w a w' → S'.answers op w a w') : Reaches S' p w q w' := by
  induction h with
  | refl => exact .refl
  | read _ hread ih => exact ih.read (hreads _ _ _ hread)
  | call _ hcall ih => exact ih.call (hans _ _ _ _ hcall)

/-- **Adequacy**: the weakest precondition holds along every execution. -/
theorem wp_reaches {p q : Program ρ ε Op Ans α} {w w' : W} {Q : α → W → Prop}
    {E : ε → W → Prop} (h : p.wp S Q E w) (hr : Reaches S p w q w') : q.wp S Q E w' := by
  induction hr with
  | refl => exact h
  | read _ hread ih => exact ih.2 _ _ hread
  | call _ hcall ih => exact ih.2 _ _ hcall

/-- What holds for more answers holds for fewer. -/
theorem wp_spec_mono {S' : Spec ρ ε Op Ans W} {p : Program ρ ε Op Ans α} {w : W}
    {Q : α → W → Prop} {E : ε → W → Prop} (h : p.wp S Q E w)
    (hread : ∀ w, S.mayRead w → S'.mayRead w) (hreads : ∀ w r w', S'.reads w r w' → S.reads w r w')
    (hcall : ∀ op w, S.mayCall op w → S'.mayCall op w)
    (hans : ∀ op w a w', S'.answers op w a w' → S.answers op w a w') : p.wp S' Q E w := by
  induction p generalizing w with
  | pure a => exact h
  | throw e => exact h
  | read k ih => exact ⟨hread w h.1, fun r w' hr => ih r (h.2 r w' (hreads _ _ _ hr))⟩
  | call op k ih => exact ⟨hcall op w h.1, fun a w' ha => ih a (h.2 a w' (hans _ _ _ _ ha))⟩

/-- Run with fixed answers. -/
def run (r : ρ) (answer : (op : Op) → Except ε (Ans op)) : Program ρ ε Op Ans α → Except ε α
  | .pure a => .ok a
  | .throw e => .error e
  | .read k => (k r).run r answer
  | .call op k => (k (answer op)).run r answer

def ofExcept : Except ε α → Program ρ ε Op Ans α
  | .ok a => .pure a
  | .error e => .throw e

/-- Running with fixed answers is an execution, from worlds `J` in which these
may be the answers. -/
theorem Reaches.run {p q : Program ρ ε Op Ans α} {w w₁ : W} {r : ρ}
    {answer : (op : Op) → Except ε (Ans op)} {J : W → Prop}
    (hread : ∀ w, J w → ∃ w', S.reads w r w' ∧ J w')
    (hanswer : ∀ op w, J w → ∃ w', S.answers op w (answer op) w' ∧ J w')
    (h : Reaches S p w q w₁) (hw : J w₁) :
    ∃ w', Reaches S p w (ofExcept (q.run r answer)) w' := by
  induction q generalizing w₁ with
  | pure a => exact ⟨w₁, h⟩
  | throw e => exact ⟨w₁, h⟩
  | read k ih =>
      obtain ⟨w', hr, hw'⟩ := hread w₁ hw
      exact ih r (h.read hr) hw'
  | call op k ih =>
      obtain ⟨w', ha, hw'⟩ := hanswer op w₁ hw
      exact ih (answer op) (h.call ha) hw'

section Run

variable {r : ρ} {answer : (op : Op) → Except ε (Ans op)}

theorem run_pure {a : α} : run r answer (Pure.pure a : Program ρ ε Op Ans α) = .ok a := rfl

theorem run_get : run r answer (get : Program ρ ε Op Ans ρ) = .ok r := rfl

theorem run_await (op : Op) :
    run r answer (await op : Program ρ ε Op Ans (Ans op)) = answer op := by
  change run r answer (.call op _) = _
  unfold run
  cases answer op <;> rfl

theorem run_bind {p : Program ρ ε Op Ans β} {f : β → Program ρ ε Op Ans α} :
    run r answer (p >>= f) = (run r answer p).bind fun b => run r answer (f b) := by
  change run r answer (p.bind f) = _
  induction p with
  | pure b => rfl
  | throw e => rfl
  | read k ih => exact ih r
  | call op k ih => exact ih (answer op)

/-- What comes after a program that ends. -/
theorem run_bind_ok {p : Program ρ ε Op Ans β} {f : β → Program ρ ε Op Ans α} {b : β}
    (h : run r answer p = .ok b) : run r answer (p >>= f) = run r answer (f b) := by
  rw [run_bind, h]
  rfl

theorem run_bind_eq_ok {p : Program ρ ε Op Ans β} {f : β → Program ρ ε Op Ans α} {a : α} :
    run r answer (p >>= f) = .ok a ↔ ∃ b, run r answer p = .ok b ∧ run r answer (f b) = .ok a := by
  rw [run_bind]
  cases run r answer p with
  | ok b => simp [Except.bind]
  | error e => simp [Except.bind]

theorem run_catching {p : Program ρ ε Op Ans α} {h : ε → Program ρ ε Op Ans α} :
    run r answer (p.catching h) =
      match run r answer p with
      | .ok a => .ok a
      | .error e => run r answer (h e) := by
  induction p with
  | pure a => rfl
  | throw e => rfl
  | read k ih => exact ih r
  | call op k ih => exact ih (answer op)

theorem run_foldl {f : σ → β → Program ρ ε Op Ans σ} {s : σ} {bs : List β} :
    run r answer (foldl f s bs) = bs.foldlM (fun s b => run r answer (f s b)) s := by
  induction bs generalizing s with
  | nil => rfl
  | cons b bs ih =>
      change run r answer (f s b >>= fun s' => foldl f s' bs) = _
      rw [run_bind, List.foldlM_cons]
      exact congrArg _ (funext fun s' => ih)

/-- **Adequacy for fixed answers**: what is returned meets the postcondition,
from worlds in which these answers may always be given. -/
theorem wp_run {p : Program ρ ε Op Ans α} {w : W} {Q : α → W → Prop} {E : ε → W → Prop} {a : α}
    (h : p.wp S Q E w) (hread : ∀ w, ∃ w', S.reads w r w')
    (hanswer : ∀ op w, ∃ w', S.answers op w (answer op) w') (hrun : run r answer p = .ok a) :
    ∃ w', Q a w' := by
  induction p generalizing w with
  | pure b =>
      obtain rfl := Except.ok.inj hrun
      exact ⟨w, h⟩
  | throw e => cases hrun
  | read k ih =>
      obtain ⟨w', hr⟩ := hread w
      exact ih r (h.2 r w' hr) hrun
  | call op k ih =>
      obtain ⟨w', ha⟩ := hanswer op w
      exact ih (answer op) (h.2 _ w' ha) hrun

/-- The operations that are called with fixed answers. -/
def calls (r : ρ) (answer : (op : Op) → Except ε (Ans op)) : Program ρ ε Op Ans α → List Op
  | .pure _ | .throw _ => []
  | .read k => calls r answer (k r)
  | .call op k => op :: calls r answer (k (answer op))

theorem calls_bind_ok {p : Program ρ ε Op Ans β} {f : β → Program ρ ε Op Ans α} {b : β}
    (h : run r answer p = .ok b) :
    calls r answer (p >>= f) = calls r answer p ++ calls r answer (f b) := by
  change calls r answer (p.bind f) = _
  induction p with
  | pure b' =>
      obtain rfl : b' = b := Except.ok.inj h
      rfl
  | throw e => cases h
  | read k ih => exact ih r h
  | call op k ih => exact congrArg (op :: ·) (ih (answer op) h)

/-- What comes after a program that throws is not called. -/
theorem calls_bind_error {p : Program ρ ε Op Ans β} {f : β → Program ρ ε Op Ans α} {e : ε}
    (h : run r answer p = .error e) : calls r answer (p >>= f) = calls r answer p := by
  change calls r answer (p.bind f) = _
  induction p with
  | pure b => cases h
  | throw e' => rfl
  | read k ih => exact ih r h
  | call op k ih => exact congrArg (op :: ·) (ih (answer op) h)

theorem mem_calls_bind {p : Program ρ ε Op Ans β} {f : β → Program ρ ε Op Ans α} {op : Op}
    (h : op ∈ calls r answer (p >>= f)) :
    op ∈ calls r answer p ∨ ∃ b, run r answer p = .ok b ∧ op ∈ calls r answer (f b) := by
  cases hrun : run r answer p with
  | ok b =>
      rw [calls_bind_ok hrun] at h
      exact (List.mem_append.mp h).imp_right fun hop => ⟨b, rfl, hop⟩
  | error e =>
      rw [calls_bind_error hrun] at h
      exact .inl h

theorem calls_catching {p : Program ρ ε Op Ans α} {h : ε → Program ρ ε Op Ans α} :
    calls r answer (p.catching h) = calls r answer p ++
      match run r answer p with
      | .ok _ => []
      | .error e => calls r answer (h e) := by
  induction p with
  | pure a => rfl
  | throw e => rfl
  | read k ih => exact ih r
  | call op k ih => exact congrArg (op :: ·) (ih (answer op))

/-- A handler calls after the program it handles. -/
theorem calls_prefix_catching {p : Program ρ ε Op Ans α} {h : ε → Program ρ ε Op Ans α} :
    calls r answer p <+: calls r answer (p.catching h) := by
  rw [calls_catching]
  exact List.prefix_append _ _

theorem calls_await (op : Op) :
    calls r answer (await op : Program ρ ε Op Ans (Ans op)) = [op] := by
  change op :: calls r answer _ = _
  cases answer op <;> rfl

/-- What is called with fixed answers is called in an execution, from worlds
in which these may be the answers. `J` tells which operations were called on
the way to a world. -/
theorem Reaches.calls_append {p q : Program ρ ε Op Ans α} {w w₁ : W} {op : Op}
    {before after : List Op} {J : List Op → W → Prop} (earlier : List Op)
    (hread : ∀ ops w, J ops w → ∃ w', S.reads w r w' ∧ J ops w')
    (hanswer : ∀ ops op w, J ops w → ∃ w', S.answers op w (answer op) w' ∧ J (ops ++ [op]) w')
    (h : Reaches S p w q w₁) (hw : J earlier w₁)
    (hcalls : q.calls r answer = before ++ op :: after) :
    ∃ k w', Reaches S p w (.call op k) w' ∧ J (earlier ++ before) w' := by
  induction q generalizing w₁ before earlier with
  | pure a => cases before <;> cases hcalls
  | throw e => cases before <;> cases hcalls
  | read k ih =>
      obtain ⟨w', hr, hw'⟩ := hread earlier w₁ hw
      exact ih r earlier (h.read hr) hw' hcalls
  | call op' k ih =>
      cases before with
      | nil =>
          obtain ⟨rfl, -⟩ := List.cons.inj hcalls
          exact ⟨k, w₁, h, by rwa [List.append_nil]⟩
      | cons first before =>
          obtain ⟨rfl, hrest⟩ := List.cons.inj hcalls
          obtain ⟨w', ha, hw'⟩ := hanswer earlier op' w₁ hw
          have hreach := ih (answer op') (earlier ++ [op']) (h.call ha) hw' hrest
          rwa [List.append_assoc, List.singleton_append] at hreach

end Run

/-! ## §4  Keeping an invariant -/

/-- The program keeps `I`, and leaves `E` when it throws. -/
def Keeps (S : Spec ρ ε Op Ans W) (I E : W → Prop) (p : Program ρ ε Op Ans α) : Prop :=
  ∀ w, I w → p.wp S (fun _ => I) (fun _ => E) w

section Keeps

variable {I E : W → Prop}

theorem keeps_pure {a : α} : Keeps S I E (Pure.pure a : Program ρ ε Op Ans α) := fun _ h => h

theorem Keeps.bind {p : Program ρ ε Op Ans β} {f : β → Program ρ ε Op Ans α}
    (hp : Keeps S I E p) (hf : ∀ b, Keeps S I E (f b)) : Keeps S I E (p >>= f) := by
  intro w hw
  rw [wp_bind]
  exact wp_mono (hp w hw) (fun b w hw => hf b w hw) fun _ _ he => he

theorem keeps_foldl {f : σ → β → Program ρ ε Op Ans σ} {s : σ} {bs : List β}
    (hf : ∀ s b, Keeps S I E (f s b)) : Keeps S I E (foldl f s bs) := fun _ hw =>
  wp_foldl (I := fun _ => I) hw fun s b w _ hw => hf s b w hw

end Keeps

/-- The program leads from `I` to `J`, and to `E` when it throws. -/
def Leads (S : Spec ρ ε Op Ans W) (I J E : W → Prop) (p : Program ρ ε Op Ans α) : Prop :=
  ∀ w, I w → p.wp S (fun _ => J) (fun _ => E) w

section Leads

variable {I J K E : W → Prop}

theorem Leads.bind {p : Program ρ ε Op Ans β} {f : β → Program ρ ε Op Ans α}
    (hp : Leads S I J E p) (hf : ∀ b, Leads S J K E (f b)) : Leads S I K E (p >>= f) := by
  intro w hw
  rw [wp_bind]
  exact wp_mono (hp w hw) (fun b w hw => hf b w hw) fun _ _ he => he

theorem Leads.mono {I' : W → Prop} {p : Program ρ ε Op Ans α} (hp : Leads S I J E p)
    (h : ∀ w, I' w → I w) : Leads S I' J E p := fun w hw => hp w (h w hw)

theorem leads_pure {a : α} (h : ∀ w, I w → J w) :
    Leads S I J E (Pure.pure a : Program ρ ε Op Ans α) := h

theorem leads_throw {e : ε} (h : ∀ w, I w → E w) :
    Leads S I J E (.throw e : Program ρ ε Op Ans α) := h

/-- An exception that is thrown again under another name. -/
theorem Leads.rethrow {p : Program ρ ε Op Ans α} {h : ε → Program ρ ε Op Ans α}
    (hp : Leads S I J E p) (hh : ∀ e, ∃ e', h e = .throw e') :
    Leads S I J E (p.catching h) := by
  intro w hw
  rw [wp_catching]
  refine wp_mono (hp w hw) (fun _ _ hq => hq) fun e w he => ?_
  obtain ⟨e', heq⟩ := hh e
  rw [heq]
  exact he

/-- Two programs that only together lead to `J`. -/
theorem Leads.pair {p : Program ρ ε Op Ans σ} {q : Program ρ ε Op Ans β}
    {f : β → Program ρ ε Op Ans α} (hpq : Leads S I J E (p >>= fun _ => q))
    (hf : ∀ b, Leads S J K E (f b)) : Leads S I K E (p >>= fun _ => q >>= f) := by
  intro w hw
  have h := hpq w hw
  rw [wp_bind] at h ⊢
  refine wp_mono h (fun _ w' hq => ?_) fun _ _ he => he
  rw [wp_bind]
  exact wp_mono hq (fun b w hw => hf b w hw) fun _ _ he => he

end Leads

/-! ## §5  Programs that only call -/

/-- The program never looks at the shared value and calls operations of `A`
only. -/
def Uses (A : Op → Prop) : Program ρ ε Op Ans α → Prop
  | .pure _ => True
  | .throw _ => True
  | .read _ => False
  | .call op k => A op ∧ ∀ a, (k a).Uses A

section Uses

variable {A : Op → Prop}

@[simp] theorem uses_pure {a : α} : Uses A (Pure.pure a : Program ρ ε Op Ans α) := trivial

@[simp] theorem uses_throw {e : ε} : Uses A (.throw e : Program ρ ε Op Ans α) := trivial

theorem Uses.bind {p : Program ρ ε Op Ans β} {f : β → Program ρ ε Op Ans α} (hp : p.Uses A)
    (hf : ∀ b, (f b).Uses A) : Uses A (p >>= f) := by
  change Uses A (p.bind f)
  induction p with
  | pure b => exact hf b
  | throw e => trivial
  | read k => exact hp.elim
  | call op k ih => exact ⟨hp.1, fun a => ih a (hp.2 a)⟩

theorem Uses.mono {B : Op → Prop} {p : Program ρ ε Op Ans α} (hp : p.Uses A)
    (h : ∀ op, A op → B op) : p.Uses B := by
  induction p with
  | pure a => trivial
  | throw e => trivial
  | read k => exact hp.elim
  | call op k ih => exact ⟨h op hp.1, fun a => ih a (hp.2 a)⟩

theorem Uses.catching {p : Program ρ ε Op Ans α} {h : ε → Program ρ ε Op Ans α}
    (hp : p.Uses A) (hh : ∀ e, (h e).Uses A) : Uses A (p.catching h) := by
  induction p with
  | pure a => trivial
  | throw e => exact hh e
  | read k => exact hp.elim
  | call op k ih => exact ⟨hp.1, fun a => ih a (hp.2 a)⟩

theorem uses_await (op : Op) (h : A op) :
    Uses A (await op : Program ρ ε Op Ans (Ans op)) := by
  refine ⟨h, fun a => ?_⟩
  cases a with
  | ok a => trivial
  | error e => trivial

theorem uses_foldl {f : σ → β → Program ρ ε Op Ans σ} (hf : ∀ s b, (f s b).Uses A) (s : σ)
    (bs : List β) : Uses A (foldl f s bs) := by
  induction bs generalizing s with
  | nil => trivial
  | cons b bs ih => exact (hf s b).bind fun s' => ih s'

/-- The operations of `A` may be called in `I` and keep it. -/
structure CallsKeep (S : Spec ρ ε Op Ans W) (A : Op → Prop) (I : W → Prop) : Prop where
  may : ∀ op w, A op → I w → S.mayCall op w
  keep : ∀ op a w w', A op → I w → S.answers op w a w' → I w'

theorem CallsKeep.mono {B : Op → Prop} {I : W → Prop} (hB : CallsKeep S B I)
    (h : ∀ op, A op → B op) : CallsKeep S A I :=
  ⟨fun op w hop => hB.may op w (h op hop), fun op a w w' hop => hB.keep op a w w' (h op hop)⟩

/-- **A program that only calls keeps what its calls keep.** -/
theorem Uses.keeps {p : Program ρ ε Op Ans α} {I E : W → Prop} (hp : p.Uses A)
    (hA : CallsKeep S A I) (hE : ∀ w, I w → E w) : Keeps S I E p := by
  intro w hw
  induction p generalizing w with
  | pure a => exact hw
  | throw e => exact hE w hw
  | read k => exact hp.elim
  | call op k ih =>
      exact ⟨hA.may op w hp.1 hw, fun a w' ha => ih a (hp.2 a) w' (hA.keep op a w w' hp.1 hw ha)⟩

/-- The answers to the operations of `A` say what comes out. -/
theorem Uses.run_congr {p : Program ρ ε Op Ans α} {r r' : ρ}
    {answer answer' : (op : Op) → Except ε (Ans op)} (hp : p.Uses A)
    (h : ∀ op, A op → answer' op = answer op) : p.run r' answer' = p.run r answer := by
  induction p with
  | pure a => rfl
  | throw e => rfl
  | read k => exact hp.elim
  | call op k ih =>
      have hrest := ih (answer op) (hp.2 _)
      show (k (answer' op)).run r' answer' = _
      rw [h op hp.1]
      exact hrest

/-- With fixed answers, only operations of `A` are called. -/
theorem Uses.calls {p : Program ρ ε Op Ans α} {r : ρ} {answer : (op : Op) → Except ε (Ans op)}
    (hp : p.Uses A) : ∀ op ∈ p.calls r answer, A op := by
  induction p with
  | pure a => exact fun op hop => nomatch hop
  | throw e => exact fun op hop => nomatch hop
  | read k => exact hp.elim
  | call op k ih => exact List.forall_mem_cons.mpr ⟨hp.1, ih (answer op) (hp.2 _)⟩

end Uses

/-! ## §6  Values -/

/-- Whatever it sees and is answered, the program returns only values in `V`. -/
def Yields (V : α → Prop) : Program ρ ε Op Ans α → Prop
  | .pure a => V a
  | .throw _ => True
  | .read k => ∀ r, (k r).Yields V
  | .call _ k => ∀ a, (k a).Yields V

section Yields

variable {V : α → Prop}

theorem yields_pure {a : α} (h : V a) : Yields V (Pure.pure a : Program ρ ε Op Ans α) := h

theorem yields_true (p : Program ρ ε Op Ans β) : p.Yields fun _ => True := by
  induction p with
  | pure b => trivial
  | throw e => trivial
  | read k ih => exact ih
  | call op k ih => exact ih

/-- What comes last says what is returned, given what came before. -/
theorem Yields.bind {U : β → Prop} {p : Program ρ ε Op Ans β} {f : β → Program ρ ε Op Ans α}
    (hp : p.Yields U) (hf : ∀ b, U b → (f b).Yields V) : Yields V (p >>= f) := by
  change Yields V (p.bind f)
  induction p with
  | pure b => exact hf b hp
  | throw e => trivial
  | read k ih => exact fun r => ih r (hp r)
  | call op k ih => exact fun a => ih a (hp a)

theorem yields_bind {p : Program ρ ε Op Ans β} {f : β → Program ρ ε Op Ans α}
    (hf : ∀ b, (f b).Yields V) : Yields V (p >>= f) := (yields_true p).bind fun b _ => hf b

/-- What is returned is one more thing that is known in the end. -/
theorem Yields.wp {p : Program ρ ε Op Ans α} {Q : α → W → Prop} {E : ε → W → Prop} {w : W}
    (hV : p.Yields V) (h : p.wp S Q E w) : p.wp S (fun a w => Q a w ∧ V a) E w := by
  induction p generalizing w with
  | pure a => exact ⟨h, hV⟩
  | throw e => exact h
  | read k ih => exact ⟨h.1, fun r w' hr => ih r (hV r) (h.2 r w' hr)⟩
  | call op k ih => exact ⟨h.1, fun a w' ha => ih a (hV a) (h.2 a w' ha)⟩

end Yields

/- From here on by the rules only: deciding whether a precondition is, say, an
implication should not run the program. -/
attribute [irreducible] wp Uses Yields

end Program

import FireBoxTransfer.Framework.Simulation
import Mathlib.Data.Option.Defs

/-!
# Values that are kept in a file

A program holds a value and keeps it in a file. The text of a value is written to a temporary
file, which then takes the place of the file. Either may fail, and the program may end at any
moment. So what is kept is the value of the last replacement that was complete, and a program
that starts finds just that: a pair of a value that is held and one that is kept says all there
is to know.
-/

namespace Replaced

open Runs

/-! ## §1  One replacement -/

/-- How far a replacement comes: the temporary file is not opened, takes the first bytes, or
takes the place of the file. -/
inductive Replacement where
  | unopened
  | written (n : ℕ)
  | renamed
deriving DecidableEq

/-- Whether the caller is told that the file was replaced. -/
def Replacement.done : Replacement → Bool
  | .renamed => true
  | .unopened | .written _ => false

/-- A file and the temporary file beside it. -/
structure ReplacedFile where
  file : Option (List UInt8)
  temp : Option (List UInt8)
deriving DecidableEq

def ReplacedFile.replace (r : ReplacedFile) (text : List UInt8) : Replacement → ReplacedFile
  | .unopened => r
  | .written n => { r with temp := some (text.take n) }
  | .renamed => ⟨some text, none⟩

/-- The file changes as a whole or not at all. -/
theorem ReplacedFile.file_replace (r : ReplacedFile) (text : List UInt8) (a : Replacement) :
    (r.replace text a).file = if a.done then some text else r.file := by
  cases a with
  | unopened | written _ | renamed => rfl

/-! ## §2  A value that is held and one that is kept -/

/-- The value in memory, while the program runs, and the one that is kept. `recent` notes down
the changes since the program started last and whether they were saved, `past` those before. -/
structure Kept (M E : Type*) where
  held : Option M
  kept : M
  past : List (E × Bool)
  recent : List (E × Bool)
deriving DecidableEq

/-- What happens to a program; `A` says how the saving of a change goes. -/
inductive Happening (E A : Type*) where
  | start
  | change (e : E) (a : A)
  /-- The program ends before a change has returned. -/
  | died (e : E) (a : A)
  | ended
deriving DecidableEq

def Happening.map {E A B : Type*} (f : A → B) : Happening E A → Happening E B
  | .start => .start
  | .change e a => .change e (f a)
  | .died e a => .died e (f a)
  | .ended => .ended

section Changes

variable {M E : Type*} (apply : E → M → Option M)

namespace Kept

/-- `apply` is `none` where nothing changes; then nothing is saved. -/
def change (k : Kept M E) (m : M) (e : E) (saved : Bool) : Kept M E :=
  match apply e m with
  | none => k
  | some m' =>
      { k with
        held := some m'
        kept := if saved then m' else k.kept
        recent := k.recent ++ [(e, saved)] }

def step (k : Kept M E) : Happening E Bool → Option (Kept M E)
  | .start =>
      match k.held with
      | none => some ⟨some k.kept, k.kept, k.past ++ k.recent, []⟩
      | some _ => none
  | .change e saved => k.held.map fun m => k.change apply m e saved
  | .died e saved => k.held.map fun m => { k.change apply m e saved with held := none }
  | .ended => k.held.map fun _ => { k with held := none }

end Kept

/-! ## §3  A value in a file -/

/-- The text of a value; `initial` is what a program starts with when there is no file. -/
structure Format (M : Type*) where
  initial : M
  write : M → List UInt8
  read : List UInt8 → Option M
  read_write : ∀ m, read (write m) = some m

def Format.load (fmt : Format M) (r : ReplacedFile) : Option M :=
  match r.file with
  | none => some fmt.initial
  | some text => fmt.read text

/-- The value in memory, what is on the disk, and what was done. -/
structure Stored (M E : Type*) where
  held : Option M
  disk : ReplacedFile
  past : List (E × Bool)
  recent : List (E × Bool)

namespace Stored

variable (fmt : Format M)

def change (s : Stored M E) (m : M) (e : E) (a : Replacement) : Stored M E :=
  match apply e m with
  | none => s
  | some m' =>
      { s with
        held := some m'
        disk := s.disk.replace (fmt.write m') a
        recent := s.recent ++ [(e, a.done)] }

def step (s : Stored M E) : Happening E Replacement → Option (Stored M E)
  | .start =>
      match s.held with
      | none => (fmt.load s.disk).map fun m => ⟨some m, s.disk, s.past ++ s.recent, []⟩
      | some _ => none
  | .change e a => s.held.map fun m => s.change apply fmt m e a
  | .died e a => s.held.map fun m => { s.change apply fmt m e a with held := none }
  | .ended => s.held.map fun _ => { s with held := none }

end Stored

/-! ## §4  The file follows the pair -/

/-- The file is the text of the value that is kept, or there is none yet. -/
def Format.Keeps (fmt : Format M) (r : ReplacedFile) (m : M) : Prop :=
  r.file = none ∧ fmt.initial = m ∨ r.file = some (fmt.write m)

structure Stored.Follows (fmt : Format M) (s : Stored M E) (k : Kept M E) : Prop where
  held : s.held = k.held
  keeps : fmt.Keeps s.disk k.kept
  past : s.past = k.past
  recent : s.recent = k.recent

variable {apply} {fmt : Format M} {s : Stored M E} {k : Kept M E}

theorem Format.Keeps.load {r : ReplacedFile} {m : M} (h : fmt.Keeps r m) :
    fmt.load r = some m := by
  unfold Format.load
  obtain ⟨hfile, rfl⟩ | hfile := h
  · rw [hfile]
  · rw [hfile]
    exact fmt.read_write m

theorem Stored.Follows.change (h : s.Follows fmt k) (m : M) (e : E) (a : Replacement) :
    (s.change apply fmt m e a).Follows fmt (k.change apply m e a.done) := by
  unfold Stored.change Kept.change
  cases apply e m with
  | none => exact h
  | some m' =>
      refine ⟨rfl, ?_, h.past, congrArg (· ++ [(e, a.done)]) h.recent⟩
      show fmt.Keeps (s.disk.replace (fmt.write m') a) (if a.done then m' else k.kept)
      have hfile := s.disk.file_replace (fmt.write m') a
      cases hdone : a.done with
      | true =>
          rw [hdone] at hfile
          exact .inr hfile
      | false =>
          rw [hdone] at hfile
          unfold Format.Keeps
          rw [show (s.disk.replace (fmt.write m') a).file = s.disk.file from hfile]
          exact h.keeps

/-- One can do what the other can do. -/
theorem Stored.Follows.step (h : s.Follows fmt k) (a : Happening E Replacement) :
    Option.Rel (Stored.Follows fmt) (s.step apply fmt a)
      (k.step apply (a.map Replacement.done)) := by
  have hheld := h.held
  cases hk : k.held with
  | none =>
      rw [hk] at hheld
      cases a with
      | start =>
          simp only [Stored.step, Kept.step, Happening.map, hheld, hk, h.keeps.load,
            Option.map_some]
          refine .some ⟨rfl, h.keeps, ?_, rfl⟩
          show s.past ++ s.recent = k.past ++ k.recent
          rw [h.past, h.recent]
      | change e a | died e a | ended =>
          simp only [Stored.step, Kept.step, Happening.map, hheld, hk, Option.map_none]
          exact .none
  | some m =>
      rw [hk] at hheld
      cases a with
      | start =>
          simp only [Stored.step, Kept.step, Happening.map, hheld, hk]
          exact .none
      | change e a =>
          simp only [Stored.step, Kept.step, Happening.map, hheld, hk, Option.map_some]
          exact .some (h.change m e a)
      | died e a =>
          simp only [Stored.step, Kept.step, Happening.map, hheld, hk, Option.map_some]
          have hchange : (s.change apply fmt m e a).Follows fmt (k.change apply m e a.done) :=
            h.change m e a
          exact .some ⟨rfl, hchange.keeps, hchange.past, hchange.recent⟩
      | ended =>
          simp only [Stored.step, Kept.step, Happening.map, hheld, hk, Option.map_some]
          exact .some ⟨rfl, h.keeps, h.past, h.recent⟩

/-- **What is kept is never lost, and never a part**: whatever fails and whenever the program
ends, the program with its file goes through what the pair of values goes through. -/
theorem Stored.Follows.run {s' : Stored M E} (h : s.Follows fmt k)
    (hrun : Reach (Stored.step apply fmt) s s') :
    ∃ k', Reach (Kept.step apply) k k' ∧ s'.Follows fmt k' := by
  refine hrun.simulate h fun m a n v hv _ hst => ?_
  have hstep : Option.Rel (Stored.Follows fmt) (m.step apply fmt a)
      (v.step apply (a.map Replacement.done)) := hv.step a
  rw [hst] at hstep
  generalize hw : v.step apply (a.map Replacement.done) = ow at hstep
  cases hstep with
  | some hnext => exact ⟨_, .single trivial hw, hnext⟩

end Changes

/-! ## §5  What is left of a history -/

section History

variable {M E : Type*}

/-- Some of the changes of a history, among them all that were saved. -/
inductive Survives : List (E × Bool) → List E → Prop where
  | nil : Survives [] []
  | kept (e : E) (saved : Bool) {h : List (E × Bool)} {es : List E} :
      Survives h es → Survives ((e, saved) :: h) (e :: es)
  | lost (e : E) {h : List (E × Bool)} {es : List E} :
      Survives h es → Survives ((e, false) :: h) es

namespace Survives

variable {h h' : List (E × Bool)} {es es' : List E}

theorem append (hs : Survives h es) (hs' : Survives h' es') :
    Survives (h ++ h') (es ++ es') := by
  induction hs with
  | nil => exact hs'
  | kept e saved _ ih => exact .kept e saved ih
  | lost e _ ih => exact .lost e ih

theorem concat (hs : Survives h es) (e : E) (saved : Bool) :
    Survives (h ++ [(e, saved)]) (es ++ [e]) :=
  hs.append (.kept e saved .nil)

theorem drop (hs : Survives h es) (e : E) : Survives (h ++ [(e, false)]) es := by
  have hlost := hs.append (.lost e .nil)
  rwa [List.append_nil] at hlost

theorem all (h : List (E × Bool)) : Survives h (h.map Prod.fst) := by
  induction h with
  | nil => exact .nil
  | cons p h ih => exact .kept p.1 p.2 ih

/-- What was saved is there. -/
theorem mem_of_saved (hs : Survives h es) {e : E} (he : (e, true) ∈ h) : e ∈ es := by
  induction hs with
  | nil => cases he
  | kept e' saved _ ih =>
      rcases List.mem_cons.mp he with heq | he
      · exact (Prod.mk.inj heq).1 ▸ List.mem_cons_self
      · exact List.mem_cons_of_mem _ (ih he)
  | lost e' _ ih =>
      rcases List.mem_cons.mp he with heq | he
      · cases (Prod.mk.inj heq).2
      · exact ih he

theorem exists_mem (hs : Survives h es) {e : E} (he : e ∈ es) : ∃ saved, (e, saved) ∈ h := by
  induction hs with
  | nil => cases he
  | kept e' saved _ ih =>
      rcases List.mem_cons.mp he with rfl | he
      · exact ⟨saved, List.mem_cons_self⟩
      · obtain ⟨saved', hmem⟩ := ih he
        exact ⟨saved', List.mem_cons_of_mem _ hmem⟩
  | lost e' _ ih =>
      obtain ⟨saved', hmem⟩ := ih he
      exact ⟨saved', List.mem_cons_of_mem _ hmem⟩

/-- A history of two parts. -/
theorem of_append (hs : Survives (h ++ h') es) :
    ∃ es₁ es₂, es = es₁ ++ es₂ ∧ Survives h es₁ ∧ Survives h' es₂ := by
  induction h generalizing es with
  | nil => exact ⟨[], es, rfl, .nil, hs⟩
  | cons p h ih =>
      rw [List.cons_append] at hs
      cases hs with
      | kept e saved hs =>
          obtain ⟨es₁, es₂, rfl, hs₁, hs₂⟩ := ih hs
          exact ⟨e :: es₁, es₂, rfl, .kept e saved hs₁, hs₂⟩
      | lost e hs =>
          obtain ⟨es₁, es₂, rfl, hs₁, hs₂⟩ := ih hs
          exact ⟨es₁, es₂, rfl, .lost e hs₁, hs₂⟩

/-- What is left, in two parts. -/
theorem exists_split {e : E} (hs : Survives h (es ++ e :: es')) :
    ∃ h₁ saved h₂, h = h₁ ++ (e, saved) :: h₂ ∧ Survives h₂ es' := by
  generalize hes : es ++ e :: es' = all at hs
  induction hs generalizing es with
  | nil => cases es <;> cases hes
  | @kept e' saved h all hs ih =>
      cases es with
      | nil =>
          obtain ⟨rfl, rfl⟩ := List.cons.inj hes
          exact ⟨[], saved, h, rfl, hs⟩
      | cons _ es =>
          obtain ⟨rfl, htail⟩ := List.cons.inj hes
          obtain ⟨h₁, saved', h₂, rfl, hs₂⟩ := ih htail
          exact ⟨(_, saved) :: h₁, saved', h₂, rfl, hs₂⟩
  | @lost e' h all hs ih =>
      obtain ⟨h₁, saved', h₂, rfl, hs₂⟩ := ih hes
      exact ⟨(e', false) :: h₁, saved', h₂, rfl, hs₂⟩

end Survives

/-- One change after another. -/
def applyAll (apply : E → M → Option M) (m : M) (es : List E) : M :=
  es.foldl (fun m e => (apply e m).getD m) m

variable {apply : E → M → Option M} {k k' : Kept M E} {h : List (E × Bool)} {m m₀ : M}

theorem applyAll_append (es es' : List E) :
    applyAll apply m (es ++ es') = applyAll apply (applyAll apply m es) es' :=
  List.foldl_append

theorem applyAll_single {e : E} {m' : M} (h : apply e m = some m') : applyAll apply m [e] = m' :=
  congrArg (Option.getD · m) h

/-- A value that some changes of a history lead to, among them all that were saved. -/
def Leads (apply : E → M → Option M) (m₀ : M) (h : List (E × Bool)) (m : M) : Prop :=
  ∃ es, Survives h es ∧ m = applyAll apply m₀ es

theorem Leads.concat (hm : Leads apply m₀ h m) {e : E} {m' : M} (happly : apply e m = some m')
    (saved : Bool) : Leads apply m₀ (h ++ [(e, saved)]) m' := by
  obtain ⟨es, hes, rfl⟩ := hm
  refine ⟨es ++ [e], hes.concat e saved, ?_⟩
  rw [applyAll_append, applyAll_single happly]

theorem Leads.drop (hm : Leads apply m₀ h m) (e : E) : Leads apply m₀ (h ++ [(e, false)]) m := by
  obtain ⟨es, hes, rfl⟩ := hm
  exact ⟨es, hes.drop e, rfl⟩

/-- Both values come from the changes there were: the value that is held from what the program
found when it started, by all the changes since. -/
structure Kept.Durable (apply : E → M → Option M) (m₀ : M) (k : Kept M E) : Prop where
  held : ∀ m, k.held = some m →
    ∃ found, Leads apply m₀ k.past found ∧ m = applyAll apply found (k.recent.map Prod.fst)
  kept : Leads apply m₀ (k.past ++ k.recent) k.kept

namespace Kept

theorem Durable.leads (hk : k.Durable apply m₀) (hm : k.held = some m) :
    Leads apply m₀ (k.past ++ k.recent) m := by
  obtain ⟨found, ⟨es, hes, rfl⟩, rfl⟩ := hk.held m hm
  exact ⟨es ++ k.recent.map Prod.fst, hes.append (.all k.recent), (applyAll_append _ _).symm⟩

theorem durable_init : Durable apply m₀ ⟨none, m₀, [], []⟩ where
  held m hm := by cases hm
  kept := ⟨[], .nil, rfl⟩

theorem Durable.change (hk : k.Durable apply m₀) (hm : k.held = some m) (e : E) (saved : Bool) :
    (k.change apply m e saved).Durable apply m₀ := by
  unfold Kept.change
  cases happly : apply e m with
  | none => exact hk
  | some m' =>
      constructor
      case held =>
        intro n hn
        obtain ⟨found, hfound, hfold⟩ := hk.held m hm
        obtain rfl := Option.some.inj hn
        refine ⟨found, hfound, ?_⟩
        rw [List.map_append, List.map_singleton, applyAll_append, ← hfold]
        exact (applyAll_single happly).symm
      case kept =>
        rw [← List.append_assoc]
        cases saved with
        | true => exact (hk.leads hm).concat happly true
        | false => exact hk.kept.drop e

theorem Durable.release (hk : k.Durable apply m₀) : ({ k with held := none }).Durable apply m₀ where
  held m hm := by cases hm
  kept := hk.kept

theorem Durable.step (hk : k.Durable apply m₀) {a : Happening E Bool}
    (hstep : k.step apply a = some k') : k'.Durable apply m₀ := by
  cases hheld : k.held with
  | none =>
      cases a with
      | start =>
          simp only [Kept.step, hheld, Option.some.injEq] at hstep
          subst hstep
          constructor
          case held =>
            intro m hm
            exact ⟨m, Option.some.inj hm ▸ hk.kept, rfl⟩
          case kept =>
            rw [List.append_nil]
            exact hk.kept
      | change e saved | died e saved | ended =>
          simp only [Kept.step, hheld, Option.map_none, reduceCtorEq] at hstep
  | some m =>
      cases a with
      | start => simp only [Kept.step, hheld, reduceCtorEq] at hstep
      | change e saved =>
          simp only [Kept.step, hheld, Option.map_some, Option.some.injEq] at hstep
          exact hstep ▸ hk.change hheld e saved
      | died e saved =>
          simp only [Kept.step, hheld, Option.map_some, Option.some.injEq] at hstep
          exact hstep ▸ (hk.change hheld e saved).release
      | ended =>
          simp only [Kept.step, hheld, Option.map_some, Option.some.injEq] at hstep
          exact hstep ▸ hk.release

/-- **What was saved stays**: whatever happens, the value that is kept and the one that is held
come from the changes in their order, of which only some that were not saved are missing. -/
theorem durable_of_run (hrun : Reach (step apply) ⟨none, m₀, [], []⟩ k) : k.Durable apply m₀ :=
  hrun.invariant durable_init fun _ _ _ hk _ hstep => hk.step hstep

end Kept

end History

end Replaced

import FireBoxTransfer.Framework.Runs

/-!
# Simulation

One system follows another: whatever the first does in one step the second can do in some
steps, and the relation between their states is kept. Then it can follow every run.
-/

namespace Runs

variable {St Lab St' Lab' : Type*} {step : St → Lab → Option St} {ok : St → Lab → Prop}
  {step' : St' → Lab' → Option St'} {ok' : St' → Lab' → Prop}

/-- **Simulation rule**. -/
theorem Run.simulate {R : St → St' → Prop} {s t : St} {u : St'} (hrun : Run step ok s t)
    (hstart : R s u)
    (hstep : ∀ m l n v, R m v → ok m l → step m l = some n → ∃ w, Run step' ok' v w ∧ R n w) :
    ∃ w, Run step' ok' u w ∧ R t w := by
  induction hrun with
  | refl => exact ⟨u, .refl, hstart⟩
  | snoc _ hok hst ih =>
      obtain ⟨v, hrun', hrel⟩ := ih
      obtain ⟨w, hmore, hrel'⟩ := hstep _ _ _ v hrel hok hst
      exact ⟨w, hrun'.trans hmore, hrel'⟩

/-- The relation is a function, and a step is followed by some steps. -/
theorem Run.map {s t : St} (f : St → St') (hrun : Run step ok s t)
    (hstep : ∀ m l n, ok m l → step m l = some n → Run step' ok' (f m) (f n)) :
    Run step' ok' (f s) (f t) := by
  obtain ⟨w, hrun', rfl⟩ := hrun.simulate (R := fun m v => f m = v)
    rfl fun m l n v hv hok hst => ⟨f n, hv ▸ hstep m l n hok hst, rfl⟩
  exact hrun'

end Runs

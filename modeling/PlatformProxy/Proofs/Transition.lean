/-!
# Transitions

The calls of a client are transitions of its states that return a result. What a sequence of
transitions does to a state is computed here step by step, and what each of them preserves is
preserved by the sequence.

## Main definitions

* `Transition.Preserves` — a transition keeps a property of the state
-/

namespace PlatformProxy

namespace Transition

variable {σ α β : Type}

theorem run_pure (a : α) (s : σ) : (pure a : StateM σ α).run s = (a, s) := rfl

theorem run_map (f : α → β) (x : StateM σ α) (s : σ) :
    (f <$> x).run s = (f (x.run s).1, (x.run s).2) := rfl

theorem run_bind (x : StateM σ α) (f : α → StateM σ β) (s : σ) :
    (x >>= f).run s = (f (x.run s).1).run (x.run s).2 := rfl

/-- Whatever the state, the transition keeps the property. -/
def Preserves (P : σ → Prop) (x : StateM σ α) : Prop := ∀ s, P s → P (x.run s).2

namespace Preserves

variable {P : σ → Prop}

theorem pure (a : α) : Preserves P (Pure.pure a : StateM σ α) := fun _ h => h

theorem map {x : StateM σ α} (hx : Preserves P x) (f : α → β) : Preserves P (f <$> x) := hx

theorem bind {x : StateM σ α} {f : α → StateM σ β} (hx : Preserves P x)
    (hf : ∀ a, Preserves P (f a)) : Preserves P (x >>= f) :=
  fun s h => hf _ _ (hx s h)

end Preserves

end Transition

end PlatformProxy

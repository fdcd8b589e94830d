import TitusIsolate.Lib.Run

/-!
# A run seen as the run of a part

A system is made of parts that may each have been studied alone. Seen through the state of
one part, a step of the system is a step of that part or nothing at all; so what the steps
of the part preserve, the steps of the system preserve.

It need be so only where an invariant of the system holds and where its steps meet a
condition `C`. The steps of the part then meet a condition `D` of their own.
-/

namespace Run

variable {σ ε τ δ : Type}

/-- How a system with this step shows a part with that one. -/
structure Projection (step : σ → ε → σ) (C : σ → ε → Prop) (step' : τ → δ → τ)
    (D : τ → δ → Prop) where
  view : σ → τ
  /-- The step of the part, if it takes one. -/
  shown : σ → ε → Option δ
  Inv : σ → Prop
  inv_step : ∀ s e, Inv s → C s e → Inv (step s e)
  view_step : ∀ s e, Inv s → C s e →
    view (step s e) = (shown s e).elim (view s) (step' (view s))
  meets : ∀ s e d, Inv s → C s e → shown s e = some d → D (view s) d

namespace Projection

variable {step : σ → ε → σ} {C : σ → ε → Prop} {step' : τ → δ → τ} {D : τ → δ → Prop}

/-- What `D`-steps of the part preserve, the system preserves. -/
theorem preserves (p : Projection step C step' D) {J : τ → Prop}
    (hJ : ∀ t d, J t → D t d → J (step' t d)) {s : σ} {e : ε}
    (h : p.Inv s ∧ J (p.view s)) (hC : C s e) :
    p.Inv (step s e) ∧ J (p.view (step s e)) := by
  refine ⟨p.inv_step s e h.1 hC, ?_⟩
  rw [p.view_step s e h.1 hC]
  cases hshown : p.shown s e with
  | none => exact h.2
  | some d => exact hJ _ d h.2 (p.meets s e d h.1 hC hshown)

end Projection

end Run

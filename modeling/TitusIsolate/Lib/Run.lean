import Mathlib.Data.List.Basic

/-!
# Runs of a deterministic step function

A run is a start state and the list of events that drive it. Everything that is
left open in the program being modelled (who calls next, with what, which write
lands first, what the outside world answers) is part of the event, so one run is
one list and "every run" is "every list".

Two ways of speaking about a run recur. `Always P` says that `P` holds in every
state of the run, the first included. `EachStep C` says that `C` holds at every
step, of the state the step starts from and the event that drives it. The rules
connect them: an invariant is what one step preserves, and a property that breaks
at exactly the steps that miss a condition holds throughout exactly the runs whose
steps all meet it.
-/

namespace Run

variable {σ ε : Type} (step : σ → ε → σ)

/-- The state a run ends in. -/
def exec (s : σ) (es : List ε) : σ := es.foldl step s

@[simp] theorem exec_nil (s : σ) : exec step s [] = s := rfl

@[simp] theorem exec_cons (s : σ) (e : ε) (es : List ε) :
    exec step s (e :: es) = exec step (step s e) es := rfl

theorem exec_append (s : σ) (es fs : List ε) :
    exec step s (es ++ fs) = exec step (exec step s es) fs := by
  unfold exec; exact List.foldl_append

/-- `P` holds in every state of the run. -/
def Always (P : σ → Prop) : σ → List ε → Prop
  | s, [] => P s
  | s, e :: es => P s ∧ Always P (step s e) es

/-- `C` holds at every step of the run. -/
def EachStep (C : σ → ε → Prop) : σ → List ε → Prop
  | _, [] => True
  | s, e :: es => C s e ∧ EachStep C (step s e) es

variable {step} {P I : σ → Prop} {C D : σ → ε → Prop}

theorem Always.head {s : σ} {es : List ε} (h : Always step P s es) : P s := by
  cases es with
  | nil => exact h
  | cons e es => exact h.1

theorem Always.mono (hPI : ∀ s, P s → I s) {s : σ} {es : List ε} (h : Always step P s es) :
    Always step I s es := by
  induction es generalizing s with
  | nil => exact hPI s h
  | cons e es ih => exact ⟨hPI s h.1, ih h.2⟩

theorem EachStep.mono (hCD : ∀ s e, C s e → D s e) {s : σ} {es : List ε}
    (h : EachStep step C s es) : EachStep step D s es := by
  induction es generalizing s with
  | nil => trivial
  | cons e es ih => exact ⟨hCD s e h.1, ih h.2⟩

theorem eachStep_of_mem {es : List ε} (h : ∀ s, ∀ e ∈ es, C s e) {s : σ} :
    EachStep step C s es := by
  induction es generalizing s with
  | nil => trivial
  | cons e es ih =>
    exact ⟨h s e (by simp), ih (fun s' e' he' => h s' e' (List.mem_cons_of_mem _ he'))⟩

theorem eachStep_append {s : σ} {es fs : List ε} :
    EachStep step C s (es ++ fs) ↔ EachStep step C s es ∧ EachStep step C (exec step s es) fs := by
  induction es generalizing s with
  | nil => exact ⟨fun h => ⟨trivial, h⟩, fun h => h.2⟩
  | cons e es ih =>
    show (_ ∧ EachStep step C _ (es ++ fs)) ↔ (_ ∧ _) ∧ _
    rw [ih, exec_cons, and_assoc]

theorem EachStep.congr (hCD : ∀ s e, C s e ↔ D s e) {s : σ} {es : List ε} :
    EachStep step C s es ↔ EachStep step D s es :=
  ⟨EachStep.mono (fun s e => (hCD s e).mp), EachStep.mono (fun s e => (hCD s e).mpr)⟩

theorem EachStep.and {s : σ} {es : List ε} (h : EachStep step C s es) (h' : EachStep step D s es) :
    EachStep step (fun s e => C s e ∧ D s e) s es := by
  induction es generalizing s with
  | nil => trivial
  | cons e es ih => exact ⟨⟨h.1, h'.1⟩, ih h.2 h'.2⟩

/-- **The invariant rule.** What holds at the start and is preserved by every step
that meets `C` holds throughout every run whose steps all meet `C`. -/
theorem always_of_step (hstep : ∀ s e, I s → C s e → I (step s e)) {s : σ} {es : List ε}
    (h0 : I s) (h : EachStep step C s es) : Always step I s es := by
  induction es generalizing s with
  | nil => exact h0
  | cons e es ih => exact ⟨h0, ih (hstep s e h0 h.1) h.2⟩

/-- The invariant rule for invariants that every step preserves. -/
theorem exec_invariant (hstep : ∀ s e, I s → I (step s e)) {s : σ} (h0 : I s) (es : List ε) :
    I (exec step s es) := by
  induction es generalizing s with
  | nil => exact h0
  | cons e es ih => exact ih (hstep s e h0)

/-- The invariant rule for invariants that the events of the run preserve. -/
theorem exec_of_mem {es : List ε} (hstep : ∀ s, ∀ e ∈ es, I s → I (step s e)) {s : σ}
    (h0 : I s) : I (exec step s es) := by
  induction es generalizing s with
  | nil => exact h0
  | cons e es ih =>
    exact ih (fun s' e' he' => hstep s' e' (List.mem_cons_of_mem _ he'))
      (hstep s e (by simp) h0)

/-- The invariant rule for the end of a run whose steps all meet `C`. -/
theorem exec_of_eachStep (hstep : ∀ s e, I s → C s e → I (step s e)) {s : σ} {es : List ε}
    (h0 : I s) (h : EachStep step C s es) : I (exec step s es) := by
  induction es generalizing s with
  | nil => exact h0
  | cons e es ih => exact ih (hstep s e h0 h.1) h.2

/-- Two step functions that agree on the events of a run make the same run. -/
theorem exec_congr {step' : σ → ε → σ} {es : List ε}
    (h : ∀ s, ∀ e ∈ es, step s e = step' s e) (s : σ) : exec step s es = exec step' s es := by
  induction es generalizing s with
  | nil => rfl
  | cons e es ih =>
    rw [exec_cons, exec_cons, h s e (by simp)]
    exact ih (fun s' e' he' => h s' e' (List.mem_cons_of_mem _ he')) _

theorem always_congr {step' : σ → ε → σ} {es : List ε}
    (h : ∀ s, ∀ e ∈ es, step s e = step' s e) (s : σ) : Always step P s es ↔ Always step' P s es := by
  induction es generalizing s with
  | nil => exact Iff.rfl
  | cons e es ih =>
    unfold Always
    rw [h s e (by simp), ih (fun s' e' he' => h s' e' (List.mem_cons_of_mem _ he'))]

/-- What every step from an invariant state does, every step of a run does. -/
theorem eachStep_of_step (hstep : ∀ s e, I s → C s e → I (step s e))
    (hD : ∀ s e, I s → C s e → D s e) {s : σ} {es : List ε}
    (h0 : I s) (h : EachStep step C s es) : EachStep step D s es := by
  induction es generalizing s with
  | nil => trivial
  | cons e es ih => exact ⟨hD s e h0 h.1, ih (hstep s e h0 h.1) h.2⟩

/--
**The exactness rule.** Suppose `I` is an invariant, and from any state where `I`
and `P` hold a step keeps `P` exactly when it meets `C`. Then `P` holds throughout
a run exactly when all its steps meet `C`.
-/
theorem always_iff_eachStep (hstep : ∀ s e, I s → I (step s e))
    (hP : ∀ s e, I s → P s → (P (step s e) ↔ C s e)) {s : σ} (es : List ε)
    (h0 : I s) (hP0 : P s) : Always step P s es ↔ EachStep step C s es := by
  induction es generalizing s with
  | nil => exact ⟨fun _ => trivial, fun _ => hP0⟩
  | cons e es ih =>
    refine ⟨?_, ?_⟩
    · intro h
      have hP1 : P (step s e) := h.2.head
      exact ⟨(hP s e h0 hP0).mp hP1, (ih (hstep s e h0) hP1).mp h.2⟩
    · intro h
      have hP1 : P (step s e) := (hP s e h0 hP0).mpr h.1
      exact ⟨hP0, (ih (hstep s e h0) hP1).mpr h.2⟩

end Run

import Mathlib.Order.WellFounded
import TitusIsolate.Lib.Run

/-!
# Fair schedules

Several threads run on and nobody says in which order; all that is known is that none of them
is left out for ever. If every event of theirs changes nothing or brings the system nearer to
its rest, and wherever it is not at rest some thread cannot but move, then it comes to rest.
-/

namespace Run

variable {σ ε κ α : Type} {step : σ → ε → σ}

variable (step) in
/-- The state after the first events of a schedule that never ends. -/
def after (s : σ) (schedule : Nat → ε) : Nat → σ
  | 0 => s
  | n + 1 => step (after s schedule n) (schedule n)

/-- The first events of a schedule. -/
def firstEvents (schedule : Nat → ε) (n : Nat) : List ε := (List.range n).map schedule

theorem after_eq_exec (s : σ) (schedule : Nat → ε) (n : Nat) :
    after step s schedule n = exec step s (firstEvents schedule n) := by
  induction n with
  | zero => rfl
  | succ n ih =>
    unfold firstEvents at ih ⊢
    rw [List.range_succ, List.map_append, exec_append, ← ih]
    rfl

/-- Where the events of a schedule do nothing any more, the state stays as it is. -/
theorem after_stays {s : σ} {schedule : Nat → ε} {n : Nat}
    (hstays : ∀ m, step (after step s schedule n) (schedule m) = after step s schedule n) :
    ∀ k, n ≤ k → after step s schedule k = after step s schedule n := by
  intro k hk
  induction k, hk using Nat.le_induction with
  | base => rfl
  | succ k _ ih =>
    show step (after step s schedule k) (schedule k) = _
    rw [ih]
    exact hstays k

/-- Every thread takes a step again and again. -/
def Fair (takes : κ → ε → Prop) (schedule : Nat → ε) : Prop :=
  ∀ k n, ∃ m, n ≤ m ∧ takes k (schedule m)

theorem Fair.later {takes : κ → ε → Prop} {schedule : Nat → ε} (h : Fair takes schedule)
    (n : Nat) : Fair takes (fun i => schedule (n + i)) := by
  intro k i
  obtain ⟨m, hm, htakes⟩ := h k (n + i)
  refine ⟨m - n, by omega, ?_⟩
  show takes k (schedule (n + (m - n)))
  rwa [Nat.add_sub_cancel' (by omega)]

theorem after_add (s : σ) (schedule : Nat → ε) (m n : Nat) :
    after step s schedule (m + n)
      = after step (after step s schedule m) (fun i => schedule (m + i)) n := by
  induction n with
  | zero => rfl
  | succ n ih => exact congrArg (fun t => step t (schedule (m + n))) ih

/-- A schedule has left the state at some event, or is still there. -/
theorem left_or_there (s : σ) (schedule : Nat → ε) (n : Nat) :
    (∃ m, after step s schedule m = s ∧ step s (schedule m) ≠ s)
      ∨ after step s schedule n = s := by
  induction n with
  | zero => exact .inr rfl
  | succ n ih =>
    rcases ih with hleft | hthere
    · exact .inl hleft
    · by_cases hmoves : step s (schedule n) = s
      · refine .inr ?_
        show step (after step s schedule n) (schedule n) = s
        rw [hthere]
        exact hmoves
      · exact .inl ⟨n, hthere, hmoves⟩

/-- **A fair schedule comes to rest.** -/
theorem fair_rests [LT α] [WellFoundedLT α] (rank : σ → α) {I R : σ → Prop} {A : ε → Prop}
    {takes : κ → ε → Prop}
    (hstep : ∀ s e, I s → A e → I (step s e) ∧ (step s e = s ∨ rank (step s e) < rank s))
    (hmoves : ∀ s, I s → ¬ R s → ∃ k, ∀ e, A e → takes k e → step s e ≠ s)
    {s : σ} (hs : I s) {schedule : Nat → ε} (hA : ∀ n, A (schedule n))
    (hfair : Fair takes schedule) : ∃ n, R (after step s schedule n) := by
  induction hrank : rank s using WellFoundedLT.induction generalizing s schedule with
  | ind r ih =>
    by_cases hrest : R s
    · exact ⟨0, hrest⟩
    obtain ⟨k, hk⟩ := hmoves s hs hrest
    obtain ⟨n, _, htakes⟩ := hfair k 0
    -- the thread that cannot but move has its turn, unless another has moved before
    obtain ⟨m, hthere, hmoved⟩ : ∃ m, after step s schedule m = s ∧ step s (schedule m) ≠ s := by
      rcases left_or_there s schedule n with hleft | hthere
      · exact hleft
      · exact ⟨n, hthere, hk _ (hA n) htakes⟩
    have hnext : after step s schedule (m + 1) = step s (schedule m) :=
      congrArg (fun t => step t (schedule m)) hthere
    obtain ⟨hI, hcase⟩ := hstep s (schedule m) hs (hA m)
    obtain ⟨n', hn'⟩ := ih _ (hrank ▸ hcase.resolve_left hmoved) hI
      (fun i => hA (m + 1 + i)) (hfair.later (m + 1)) rfl
    refine ⟨m + 1 + n', ?_⟩
    rw [after_add, hnext]
    exact hn'

end Run
